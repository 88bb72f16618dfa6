import Coordination.Proofs.Path
import Coordination.Proofs.Tree.Record

/-!
# The grammar of paths

Paths are the root and what becomes of it when components are joined to it one after another
(`path_induction`). `spell` writes the components, `components` reads them off again, so that each
path arises in one way only: a path and a component on the one side, a longer path on the other are
the same thing, and different paths have different records in the store.
-/

namespace Coordination.Path

/-- Components written one after another, each after a slash. -/
def spell (names : List String) : String := String.join (names.map (root ++ ·))

/-- The path with the given components; the root has none. -/
def ofNames (names : List String) : String := if names = [] then root else spell names

/-- The components of a path. -/
def components (path : String) : List String :=
  if path = root then [] else ((components? path).getD []).map String.ofList

variable {above last : String} {names : List String}

/-! ## Paths grow by components -/

/-- What holds of the root, and of whatever is joined to a path of which it holds, holds of all
paths. -/
lemma path_induction {P : String → Prop} (top : P root)
    (below : ∀ above last, isValid above = true → IsName last → P above → P (join above last))
    {path : String} (valid : isValid path = true) : P path := by
  by_cases eq : path = root
  · exact eq ▸ top
  · have lower := isValid_parent valid eq
    rw [← join_parent_name valid eq]
    refine below _ _ lower (isName_name valid eq) ?_
    by_cases isRoot : parent path = root
    · exact isRoot ▸ top
    · -- the recursion is on the number of slashes
      have less := depth_parent_lt valid eq isRoot
      exact path_induction top below lower
termination_by depth path

/-- A component more is read off a path with a component more. -/
lemma components_join (valid : isValid above = true) (plain : IsName last) :
    components (join above last) = components above ++ [last] := by
  have below : join above last ≠ root := (parts_join valid plain).2.1
  rw [components, if_neg below]
  by_cases top : above = root
  · have chars : (join above last).toList = '/' :: last.toList := by
      rw [join, if_pos top]
      simp [root]
    rw [components?, chars, components, if_pos top]
    simp [splitOn_plain plain.2]
  · obtain ⟨rest, eq, -⟩ := (isValid_iff.mp valid).resolve_left top
    have chars : (join above last).toList = '/' :: (rest ++ '/' :: last.toList) := by
      rw [join, if_neg top]
      simp [root, eq]
    rw [components?, chars, components, if_neg top, components?, eq]
    simp [splitOn_append plain.2]

/-- Joining a component to a path writes it after a slash. -/
lemma ofNames_concat (read : components (ofNames names) = names) :
    ofNames (names ++ [last]) = join (ofNames names) last := by
  have written : ofNames (names ++ [last]) = spell names ++ root ++ last := by
    rw [ofNames, if_neg (by simp), spell, List.map_append, String.join_append, String.append_assoc]
    simp [spell]
  rw [written]
  by_cases nil : names = []
  · subst nil
    rfl
  · have below : ofNames names ≠ root := by
      intro eq
      rw [eq] at read
      exact nil read.symm
    rw [join, if_neg below, ofNames, if_neg nil]

/-- What is made of components is a path, and these are its components. -/
lemma ofNames_spec (plain : ∀ name ∈ names, IsName name) :
    isValid (ofNames names) = true ∧ components (ofNames names) = names := by
  induction names using List.reverseRecOn with
  | nil => exact ⟨isValid_root, rfl⟩
  | append_singleton names name ih =>
    have last : IsName name := plain name (by simp)
    obtain ⟨valid, read⟩ := ih fun name mem => plain name (List.mem_append_left _ mem)
    rw [ofNames_concat read]
    exact ⟨(parts_join valid last).1, by rw [components_join valid last, read]⟩

/-- Every path is made of components. -/
lemma exists_names {path : String} (valid : isValid path = true) :
    ∃ names, (∀ name ∈ names, IsName name) ∧ path = ofNames names := by
  refine path_induction (P := fun path => ∃ names, (∀ name ∈ names, IsName name) ∧
    path = ofNames names) ⟨[], by simp, rfl⟩ ?_ valid
  rintro _ last - lone ⟨names, plain, rfl⟩
  refine ⟨names ++ [last], ?_, (ofNames_concat (ofNames_spec plain).2).symm⟩
  intro name mem
  rcases List.mem_append.mp mem with mem | mem
  · exact plain name mem
  · exact List.mem_singleton.mp mem ▸ lone

/-! ## The check, the cut and the join -/

/-- The check accepts the root and what is spelled with components. -/
lemma validate_eq_ok_iff_spelled {path : String} : validate path = .ok () ↔
    path = root ∨ ∃ names, names ≠ [] ∧ (∀ name ∈ names, IsName name) ∧ path = spell names := by
  rw [validate_eq_ok_iff]
  constructor
  · intro valid
    obtain ⟨names, plain, rfl⟩ := exists_names valid
    by_cases nil : names = []
    · exact .inl (if_pos nil)
    · exact .inr ⟨names, nil, plain, if_neg nil⟩
  · rintro (rfl | ⟨names, some, plain, rfl⟩)
    · exact isValid_root
    · have valid := (ofNames_spec plain).1
      rwa [ofNames, if_neg some] at valid

/-- A path that is not the root has one component more than its parent, and more slashes unless the
parent is the root. -/
lemma parts_of_validate {path : String} (valid : validate path = .ok ()) (below : path ≠ root) :
    validate (parent path) = .ok () ∧
    components path = components (parent path) ++ [name path] ∧
    (parent path = root ∨ depth (parent path) < depth path) := by
  have accepted := validate_eq_ok_iff.mp valid
  have above := isValid_parent accepted below
  have read := components_join above (isName_name accepted below)
  rw [join_parent_name accepted below] at read
  exact ⟨validate_of_isValid above, read,
    or_iff_not_imp_left.mpr fun low => depth_parent_lt accepted below low⟩

/-- Two paths that are put together are equal only if their parts are. -/
lemma join_inj {above' last' : String} (valid : isValid above = true) (plain : IsName last)
    (valid' : isValid above' = true) (plain' : IsName last')
    (same : join above last = join above' last') : above = above' ∧ last = last' := by
  obtain ⟨-, -, front, back⟩ := parts_join valid plain
  obtain ⟨-, -, front', back'⟩ := parts_join valid' plain'
  rw [same] at front back
  exact ⟨front.symm.trans front', back.symm.trans back'⟩

/-- Paths and their parts. The check accepts the root and what is spelled with components, of which
there is one way only, and refuses everything else by its text. A path other than the root is cut
into a path with one component less and that component, which make it again when they are joined.
Whatever path and component are joined, they make a path that is cut into the same two; so other
parts make another path, which has another key in the store. -/
theorem cut_and_joined :
    (∀ path, (validate path = .ok () ↔
        path = root ∨ ∃ names, names ≠ [] ∧ (∀ name ∈ names, IsName name) ∧ path = spell names) ∧
      (validate path ≠ .ok () → validate path = .error (.invalidPath path))) ∧
    (∀ names, names ≠ [] → (∀ name ∈ names, IsName name) → components (spell names) = names) ∧
    (∀ path, validate path = .ok () → path ≠ root →
      (validate (parent path) = .ok () ∧
        components path = components (parent path) ++ [name path] ∧
        (parent path = root ∨ depth (parent path) < depth path)) ∧
      IsName (name path) ∧ join (parent path) (name path) = path) ∧
    (∀ above last, validate above = .ok () → IsName last →
      validate (join above last) = .ok () ∧ join above last ≠ root ∧
      parent (join above last) = above ∧ name (join above last) = last) ∧
    ∀ above last above' last', validate above = .ok () → IsName last → validate above' = .ok () →
      IsName last' → (above, last) ≠ (above', last') →
      join above last ≠ join above' last' ∧
      Record.key (join above last) ≠ Record.key (join above' last') := by
  refine ⟨fun path => ⟨validate_eq_ok_iff_spelled, fun refused => ?_⟩, fun names some plain => ?_,
    fun path valid below => ⟨parts_of_validate valid below, ?_, ?_⟩, fun above last valid plain => ?_,
    fun above last above' last' valid plain valid' plain' apart => ?_⟩
  · rw [validate, if_neg (mt validate_of_isValid refused)]
  · have read := (ofNames_spec plain).2
    rwa [ofNames, if_neg some] at read
  · exact isName_name (validate_eq_ok_iff.mp valid) below
  · exact join_parent_name (validate_eq_ok_iff.mp valid) below
  · rw [validate_eq_ok_iff] at valid ⊢
    exact parts_join valid plain
  · have paths : join above last ≠ join above' last' := by
      intro same
      obtain ⟨rfl, rfl⟩ := join_inj (validate_eq_ok_iff.mp valid) plain
        (validate_eq_ok_iff.mp valid') plain' same
      exact apart rfl
    exact ⟨paths, fun same => paths (Record.key_injective same)⟩

/-- A nested path is cut into its names, an empty name is refused, and different names have
different keys. -/
theorem cut_and_joined_nested :
    validate "/α/b c" = .ok () ∧ components "/α/b c" = ["α", "b c"] ∧
    validate "/α//b" = .error (.invalidPath "/α//b") ∧
    Record.key (join "/α" "b c") ≠ Record.key (join "/" "b c") := by
  obtain ⟨check, read, -, -, apart⟩ := cut_and_joined
  have plain : ∀ name ∈ ["α", "b c"], IsName name := by decide
  refine ⟨(check _).1.mpr (.inr ⟨["α", "b c"], by decide, plain, by decide⟩),
    read ["α", "b c"] (by decide) plain, (check _).2 (by decide), ?_⟩
  exact (apart "/α" "b c" "/" "b c" (by decide) (by decide) (by decide) (by decide) (by decide)).2

end Coordination.Path
