import Coordination.Path
import Coordination.Proofs.Failure

/-!
# The algebra of paths

A valid path other than the root is a valid path, a slash and a component. `Cut` says so on the
characters; `parent` and `name` read the two parts off it, `join_parent_name` puts them together
again, and `depth_parent` says that a parent has one slash less unless it is the root.
-/

namespace Coordination.Path

/-- Characters that `isValid` accepts: a slash, then components none of which is empty. -/
def Proper (cs : List Char) : Prop :=
  ∃ rest, cs = '/' :: rest ∧ ∀ part ∈ rest.splitOn '/', part ≠ []

/-- A path cut at its last slash. -/
structure Cut (path : String) where
  before : List Char
  after : List Char
  whole : path.toList = before ++ '/' :: after
  plain : '/' ∉ after
  filled : after ≠ []
  proper : before = [] ∨ Proper before

/-- A path is valid if it is the root or its characters are proper. -/
lemma isValid_iff {path : String} : isValid path = true ↔ path = root ∨ Proper path.toList := by
  rw [isValid, Bool.or_eq_true, beq_iff_eq]
  refine or_congr_right ?_
  unfold components? Proper
  split
  case h_1 rest eq => simp [eq]
  case h_2 other =>
    simp only [Option.any_none, Bool.false_eq_true, false_iff]
    rintro ⟨rest, eq, -⟩
    exact other rest eq

example : isValid "/a/b" = true ∧ isValid "/a//b" = false := by decide

/-- The root is a path. -/
lemma isValid_root : isValid root = true := isValid_iff.mpr (.inl rfl)

/-- The last slash of characters that contain one. -/
lemma exists_last_slash {cs : List Char} (mem : '/' ∈ cs) :
    ∃ before after, cs = before ++ '/' :: after ∧ '/' ∉ after := by
  obtain ⟨after, before, eq, fresh⟩ := List.eq_append_cons_of_mem (List.mem_reverse.mpr mem)
  refine ⟨before.reverse, after.reverse, ?_, ?_⟩
  · have := congrArg List.reverse eq
    simpa using this
  · simpa using fresh

/-- Characters without a slash are one component. -/
lemma splitOn_plain {cs : List Char} (plain : '/' ∉ cs) : cs.splitOn '/' = [cs] := by
  rw [List.splitOn_eq_splitOnP]
  refine List.splitOnP_eq_singleton fun c hc => ?_
  simp only [beq_eq_false_iff_ne]
  rintro rfl
  exact plain hc

/-- The components of a path end with what follows its last slash. -/
lemma splitOn_append {before after : List Char} (plain : '/' ∉ after) :
    (before ++ '/' :: after).splitOn '/' = before.splitOn '/' ++ [after] := by
  rw [← splitOn_plain plain, List.splitOn_eq_splitOnP, List.splitOn_eq_splitOnP,
    List.splitOn_eq_splitOnP, List.splitOnP_append_cons before after (by simp)]

/-- Every valid path other than the root can be cut. -/
lemma exists_cut {path : String} (valid : isValid path = true) (ne : path ≠ root) :
    Nonempty (Cut path) := by
  obtain ⟨rest, eq, parts⟩ := (isValid_iff.mp valid).resolve_left ne
  have mem : '/' ∈ path.toList := by simp [eq]
  obtain ⟨before, after, whole, plain⟩ := exists_last_slash mem
  cases before with
  | nil =>
    have tail : rest = after := by simpa [eq] using whole
    subst tail
    refine ⟨⟨[], rest, whole, plain, ?_, .inl rfl⟩⟩
    rintro rfl
    exact parts [] (by simp) rfl
  | cons c before =>
    obtain ⟨rfl, tail⟩ : '/' = c ∧ rest = before ++ '/' :: after := by simpa [eq] using whole
    rw [tail, splitOn_append plain] at parts
    refine ⟨⟨'/' :: before, after, whole, plain, ?_, .inr ⟨before, rfl, fun part hp => ?_⟩⟩⟩
    · exact parts after (by simp)
    · exact parts part (by simp [hp])

namespace Cut

variable {path : String}

/-- Read backwards, a path has no slash before the last one. -/
lemma not_slash (cut : Cut path) : ∀ c ∈ cut.after.reverse, (decide (c ≠ '/')) = true := by
  intro c mem
  have other : c ≠ '/' := by
    rintro rfl
    exact cut.plain (List.mem_reverse.mp mem)
  simpa using other

/-- The part after the last slash. -/
lemma name_eq (cut : Cut path) : name path = String.ofList cut.after := by
  rw [name, cut.whole, List.reverse_append, List.reverse_cons, List.append_assoc,
    List.takeWhile_append_of_pos cut.not_slash]
  simp

/-- The part before the last slash, or the root if there is nothing before it. -/
lemma parent_eq (cut : Cut path) :
    parent path = if cut.before = [] then root else String.ofList cut.before := by
  have dropped : path.toList.reverse.dropWhile (fun c => decide (c ≠ '/')) =
      '/' :: cut.before.reverse := by
    rw [cut.whole, List.reverse_append, List.reverse_cons, List.append_assoc,
      List.dropWhile_append_of_pos cut.not_slash]
    simp
  rw [parent, dropped]
  rcases List.eq_nil_or_concat cut.before with eq | ⟨init, last, eq⟩
  · simp [eq]
  · simp [eq]

/-- What stands before the last slash is not the root itself. -/
lemma before_ne_root (cut : Cut path) : String.ofList cut.before ≠ root := by
  intro eq
  have chars : cut.before = ['/'] := by
    have := congrArg String.toList eq
    simpa [root] using this
  rcases cut.proper with nil | ⟨rest, eq', parts⟩
  · simp [nil] at chars
  · rw [eq'] at chars
    have none : rest = [] := by simpa using chars
    subst none
    exact parts [] (by simp) rfl

end Cut

variable {path : String}

/-- The parent of a valid path is a valid path. -/
lemma isValid_parent (valid : isValid path = true) (ne : path ≠ root) :
    isValid (parent path) = true := by
  obtain ⟨cut⟩ := exists_cut valid ne
  rw [cut.parent_eq]
  split
  case isTrue => exact isValid_root
  case isFalse filled =>
    refine isValid_iff.mpr (.inr ?_)
    rw [String.toList_ofList]
    exact cut.proper.resolve_left filled

/-- The two parts of a path determine it. -/
lemma join_parent_name (valid : isValid path = true) (ne : path ≠ root) :
    join (parent path) (name path) = path := by
  obtain ⟨cut⟩ := exists_cut valid ne
  apply String.toList_injective
  rw [cut.name_eq, cut.parent_eq, cut.whole]
  by_cases nil : cut.before = []
  · rw [if_pos nil, join, if_pos rfl, nil]
    simp [root]
  · rw [if_neg nil, join, if_neg cut.before_ne_root]
    simp [root]

/-- A path with the parent and the name of another is that path. -/
lemma eq_of_parent_of_name {other : String} (valid : isValid path = true) (ne : path ≠ root)
    (valid' : isValid other = true) (ne' : other ≠ root) (parents : parent path = parent other)
    (names : name path = name other) : path = other := by
  rw [← join_parent_name valid ne, ← join_parent_name valid' ne', parents, names]

/-- A parent has one slash less, unless it is the root. -/
lemma depth_parent (valid : isValid path = true) (ne : path ≠ root) :
    parent path = root ∧ depth path = 1 ∨
      parent path ≠ root ∧ depth (parent path) + 1 = depth path := by
  obtain ⟨cut⟩ := exists_cut valid ne
  have after : cut.after.count '/' = 0 := List.count_eq_zero.mpr cut.plain
  have whole : depth path = cut.before.count '/' + 1 := by
    rw [depth, cut.whole]
    simp [after]
  rw [cut.parent_eq]
  by_cases nil : cut.before = []
  · refine .inl ⟨if_pos nil, ?_⟩
    rw [whole, nil]
    rfl
  · refine .inr ⟨?_, ?_⟩
    · rw [if_neg nil]
      exact cut.before_ne_root
    · rw [if_neg nil, whole, depth, String.toList_ofList]

/-- Only the root has no depth. -/
lemma depth_pos (valid : isValid path = true) (ne : path ≠ root) : 0 < depth path := by
  rcases depth_parent valid ne with ⟨-, one⟩ | ⟨-, less⟩ <;> omega

/-- A parent other than the root is less deep. -/
lemma depth_parent_lt (valid : isValid path = true) (ne : path ≠ root)
    (below : parent path ≠ root) : depth (parent path) < depth path := by
  obtain ⟨-, less⟩ := (depth_parent valid ne).resolve_left fun top => below top.1
  omega

/-- No path other than the root is its own parent. -/
lemma parent_ne_self (valid : isValid path = true) (ne : path ≠ root) : parent path ≠ path := by
  intro eq
  have below : parent path ≠ root := by rwa [eq]
  have less := depth_parent_lt valid ne below
  rw [eq] at less
  exact lt_irrefl _ less

/-! ## Paths put together -/

/-- A component of a path: it is not empty and has no slash. -/
def IsName (name : String) : Prop := name.toList ≠ [] ∧ '/' ∉ name.toList

/-- It can be decided whether a text is a name. -/
instance (name : String) : Decidable (IsName name) := inferInstanceAs (Decidable (_ ∧ _))

/-- What can be cut is valid. -/
lemma Cut.isValid (cut : Cut path) : isValid path = true := by
  refine isValid_iff.mpr (.inr ?_)
  rw [cut.whole]
  rcases cut.proper with nil | ⟨rest, eq, parts⟩
  · refine ⟨cut.after, by rw [nil]; rfl, ?_⟩
    rw [splitOn_plain cut.plain]
    intro part mem
    rw [List.mem_singleton.mp mem]
    exact cut.filled
  · refine ⟨rest ++ '/' :: cut.after, by rw [eq]; rfl, ?_⟩
    rw [splitOn_append cut.plain]
    intro part mem
    rcases List.mem_append.mp mem with mem | mem
    · exact parts part mem
    · rw [List.mem_singleton.mp mem]
      exact cut.filled

/-- The root cannot be cut. -/
lemma Cut.ne_root (cut : Cut path) : path ≠ root := by
  rintro rfl
  have length := congrArg List.length cut.whole
  have filled := List.length_pos_of_ne_nil cut.filled
  simp only [root, String.reduceToList, List.length_cons, List.length_nil, List.length_append] at length
  omega

/-- A valid path and a component are put together to a path that is cut between them. -/
lemma exists_cut_join {above name : String} (valid : isValid above = true) (plain : IsName name) :
    ∃ cut : Cut (join above name), cut.before = (if above = root then [] else above.toList) ∧
      cut.after = name.toList := by
  by_cases top : above = root
  · refine ⟨⟨[], name.toList, ?_, plain.2, plain.1, .inl rfl⟩, (if_pos top).symm, rfl⟩
    rw [join, if_pos top]
    simp [root]
  · refine ⟨⟨above.toList, name.toList, ?_, plain.2, plain.1, .inr ?_⟩, (if_neg top).symm, rfl⟩
    · rw [join, if_neg top]
      simp [root]
    · exact (isValid_iff.mp valid).resolve_left top

/-- A path put together is valid, is not the root, and falls into the same two parts again. -/
lemma parts_join {above name : String} (valid : isValid above = true) (plain : IsName name) :
    isValid (join above name) = true ∧ join above name ≠ root ∧
      parent (join above name) = above ∧ Path.name (join above name) = name := by
  obtain ⟨cut, before, after⟩ := exists_cut_join valid plain
  refine ⟨cut.isValid, cut.ne_root, ?_, ?_⟩
  · rw [cut.parent_eq, before]
    by_cases top : above = root
    · rw [if_pos top, if_pos rfl, top]
    · have filled : above.toList ≠ [] := by
        obtain ⟨rest, eq, -⟩ := (isValid_iff.mp valid).resolve_left top
        simp [eq]
      rw [if_neg top, if_neg filled, String.ofList_toList]
  · rw [cut.name_eq, after, String.ofList_toList]

example : parent "/a/b" = "/a" ∧ name "/a/b" = "b" := by decide

/-- What stands after the last slash of a path is a component. -/
lemma isName_name (valid : isValid path = true) (ne : path ≠ root) : IsName (name path) := by
  obtain ⟨cut⟩ := exists_cut valid ne
  rw [cut.name_eq, IsName, String.toList_ofList]
  exact ⟨cut.filled, cut.plain⟩

/-! ## The check -/

/-- Paths pass their check. -/
lemma validate_eq_ok_iff : validate path = .ok () ↔ isValid path = true := by
  simp [validate]

/-- A path passes its check. -/
lemma validate_of_isValid (valid : isValid path = true) : validate path = .ok () :=
  validate_eq_ok_iff.mpr valid

/-- A text that is no path is no sign of corruption. -/
lemma validate_ne_corrupted {detail : String} : validate path ≠ .error (.corrupted detail) := by
  unfold validate
  split <;> simp

end Coordination.Path
