import Coordination.Proofs.Coordinator.Invariant

/-!
# What the owner of a handle can know

The owner of a handle is told what happens at one node. A `View` is what it can know from that: the
names of the children and of the attributes of the node, and whether the handle holds the lock. News
change a view, and some news contradict some views: nothing can be added that is there, or removed
that is not.

`Reports` says of two states that the commands handed over in between tell every open handle, as far
as it is interested, how its view has come about, and that a handle which has ended was retired
after that. It composes, so what an operation announces is said once for each of its stages.
-/

namespace Coordination

section Domain

variable {κ υ : Type} [LT κ] {m : FinMap κ υ} {k : κ} {v : υ}

/-- The keys of a map as a set. -/
def FinMap.domain (m : FinMap κ υ) : FinSet κ :=
  ⟨m.toList.map fun b => (b.1, ()), List.pairwise_map.mpr m.ascending⟩

variable [DecidableEq κ] [StrictOrder κ]

/-- Sets with the same members are equal. -/
lemma FinSet.ext {s t : FinSet κ} (same : ∀ k, k ∈ s ↔ k ∈ t) : s = t := by
  apply FinMap.ext
  intro k
  have same := same k
  rw [FinMap.mem_def, FinMap.mem_def] at same
  cases found : s.get? k <;> cases found' : t.get? k <;> simp_all

/-- The domain holds the members of the map. -/
lemma FinMap.mem_domain : k ∈ m.domain ↔ k ∈ m := by
  rw [← mem_keys, ← mem_keys]
  simp [keys, domain]

/-- The domain loses the key that is dropped. -/
lemma FinMap.domain_erase : (m.erase k).domain = m.domain.erase k := by
  refine FinSet.ext fun k' => ?_
  rw [mem_domain, FinSet.mem_erase, mem_domain, mem_def, mem_def, get?_erase]
  split <;> simp_all

variable [DecidableLT κ]

/-- The domain gains the key that is bound. -/
lemma FinMap.domain_insert : (m.insert k v).domain = m.domain.add k := by
  refine FinSet.ext fun k' => ?_
  rw [mem_domain, FinSet.mem_add, mem_domain, mem_def, mem_def, get?_insert]
  split <;> simp_all

end Domain

/-! ## Views -/

/-- The names of what is at a node. -/
structure Names where
  children : FinSet String
  attrs : FinSet String
  deriving DecidableEq

/-- The names at a node after a piece of news, unless it contradicts them. -/
def Names.after? (m : Names) : Notification → Option Names
  | .attrSet name => some { m with attrs := m.attrs.add name }
  | .attrDel name => if name ∈ m.attrs then some { m with attrs := m.attrs.erase name } else none
  | .childAdded name =>
    if name ∈ m.children then none else some { m with children := m.children.add name }
  | .childRemoved name =>
    if name ∈ m.children then some { m with children := m.children.erase name } else none
  | .lockAcquired => some m
  | .lockReleased => some m

/-- The names at a node after some news. -/
def Names.replay? (m : Names) (news : List Notification) : Option Names := news.foldlM after? m

/-- Whether a lock is held after a piece of news, unless it contradicts what was known. -/
def holdsAfter? (holds : Bool) : Notification → Option Bool
  | .lockAcquired => if holds then none else some true
  | .lockReleased => if holds then some false else none
  | _ => some holds

/-- What the owner of a handle can know. -/
structure View where
  names : Names
  holds : Bool
  deriving DecidableEq

/-- The view after a piece of news, unless it contradicts the view. -/
def View.after? (v : View) (n : Notification) : Option View := do
  let names ← v.names.after? n
  let holds ← holdsAfter? v.holds n
  return ⟨names, holds⟩

/-- The view after all the news, unless one of them contradicts it. -/
def View.replay? (v : View) (news : List Notification) : Option View := news.foldlM after? v

/-- The names of what is at a node. -/
def Node.names (n : Node) : Names := ⟨n.children, n.attrs.domain⟩

namespace State

/-- What is to be known of the node and the lock of a handle. -/
def view? (s : State) (handle : HandleId) (r : Handle) : Option View :=
  (s.tree.get? r.node).map fun n => ⟨n.names, s.locks.isHolder r.node handle⟩

end State

variable {v v' : View} {news news' : List Notification}

/-- News change the names and the hold on the lock apart from each other. -/
lemma View.after?_eq_some {n : Notification} : v.after? n = some v' ↔
    v.names.after? n = some v'.names ∧ holdsAfter? v.holds n = some v'.holds := by
  rw [after?]
  cases v.names.after? n <;> cases holdsAfter? v.holds n <;> cases v' <;> simp

/-- News may be replayed in two parts. -/
lemma View.replay?_append : v.replay? (news ++ news') = (v.replay? news).bind (·.replay? news') :=
  List.foldlM_append ..

/-- A view is followed by following its parts. -/
lemma View.replay?_eq_some : v.replay? news = some v' ↔
    v.names.replay? news = some v'.names ∧ news.foldlM holdsAfter? v.holds = some v'.holds := by
  induction news generalizing v with
  | nil =>
    cases v
    cases v'
    simp [replay?, Names.replay?]
  | cons n rest ih =>
    have step : v.replay? (n :: rest) = (v.after? n).bind (·.replay? rest) := rfl
    have names : v.names.replay? (n :: rest) = (v.names.after? n).bind (·.replay? rest) := rfl
    rw [step, names, List.foldlM_cons]
    cases first : v.names.after? n with
    | none => simp [View.after?, first]
    | some m =>
      cases second : holdsAfter? v.holds n with
      | none => simp [View.after?, first, second]
      | some b =>
        have both : v.after? n = some ⟨m, b⟩ := View.after?_eq_some.mpr ⟨first, second⟩
        rw [both]
        exact ih

/-! ## Commands for one handle -/

/-- The handle that a command is about. -/
def Command.handle : Command → HandleId
  | .deliver event _ => event.handle
  | .retire handle => handle

/-- The commands about a handle. -/
def concerning (handle : HandleId) (out : List Command) : List Command :=
  out.filter (·.handle = handle)

/-- The owner of a handle is told the news that it is interested in. -/
def due (handle : HandleId) (r : Handle) (news : List Notification) : List Command :=
  (news.filter (r.interest.covers ·.interest)).map fun n =>
    .deliver ⟨handle, r.node, n⟩ r.callback

/-- What an open handle is told of a piece of news. -/
def telling (t : HandleTable) (n : Notification) (handle : HandleId) : List Command :=
  match t.get? handle with
  | none => []
  | some r => due handle r [n]

variable {handle h : HandleId} {r : Handle} {out out' : List Command} {t : HandleTable}
variable {n : Notification} {list : List HandleId}

/-- What concerns a handle in two parts of the commands. -/
lemma concerning_append : concerning handle (out ++ out') =
    concerning handle out ++ concerning handle out' :=
  List.filter_append ..

/-- All commands about a handle concern it. -/
lemma concerning_eq_self (own : ∀ c ∈ out, c.handle = handle) : concerning handle out = out :=
  List.filter_eq_self.mpr fun c mem => decide_eq_true (own c mem)

/-- Commands about other handles do not concern it. -/
lemma concerning_eq_nil (other : ∀ c ∈ out, c.handle ≠ handle) : concerning handle out = [] :=
  List.filter_eq_nil_iff.mpr fun c mem => by simpa using other c mem

/-- What is due for news in two parts. -/
lemma due_append : due handle r (news ++ news') = due handle r news ++ due handle r news' := by
  rw [due, List.filter_append, List.map_append]
  rfl

/-- Telling a handle addresses no other. -/
lemma handle_of_telling {c : Command} (mem : c ∈ telling t n handle) : c.handle = handle := by
  rw [telling] at mem
  split at mem
  · cases mem
  · obtain ⟨_, -, rfl⟩ := List.mem_map.mp mem
    rfl

/-- Of what handles are told, each is told its own. -/
lemma concerning_tellings (apart : list.Nodup) : concerning handle (list.flatMap (telling t n)) =
    if handle ∈ list then telling t n handle else [] := by
  induction list with
  | nil => rfl
  | cons a rest ih =>
    obtain ⟨fresh, apart⟩ := List.nodup_cons.mp apart
    rw [List.flatMap_cons, concerning_append, ih apart]
    by_cases eq : handle = a
    · subst eq
      have own := concerning_eq_self fun c (mem : c ∈ telling t n handle) => handle_of_telling mem
      rw [own, if_neg fresh, if_pos (List.mem_cons_self ..), List.append_nil]
    · have none := concerning_eq_nil fun c (mem : c ∈ telling t n a) (own : c.handle = handle) =>
        eq (own.symm.trans (handle_of_telling mem))
      simp [none, eq]

namespace State

variable {s s' s₁ s₂ s₃ : State} {id : NodeId}

/-- What telling a handle hands over. -/
lemma outbox_tell (s : State) (handle : HandleId) (n : Notification) :
    (s.tell handle n).outbox = s.outbox ++ telling s.handles n handle := by
  rw [tell, telling]
  cases s.handles.get? handle with
  | none => simp
  | some r =>
    by_cases covers : r.interest.covers n.interest = true
    · simp [due, covers, send]
    · simp [due, covers]

/-- What telling several handles hands over. -/
lemma outbox_foldl_tell (n : Notification) (list : List HandleId) :
    (list.foldl (fun s h => s.tell h n) s).outbox =
      s.outbox ++ list.flatMap (telling s.handles n) := by
  induction list generalizing s with
  | nil => simp
  | cons h rest ih =>
    rw [List.foldl_cons, ih, outbox_tell, (s.sameTables_tell h n).handles, List.flatMap_cons,
      List.append_assoc]

/-- All handles on a node are told. -/
lemma outbox_tellAll {m : Node} (node : s.tree.get? id = some m) (n : Notification) :
    (s.tellAll id n).outbox = s.outbox ++ m.handles.keys.flatMap (telling s.handles n) := by
  rw [tellAll, node]
  exact outbox_foldl_tell n _

/-! ## Reports -/

/-- What becomes of an open handle. It is told how its view has come about; if it ends, it is
retired at last, and does not hold the lock by then. -/
def Fate (s s' : State) (handle : HandleId) (r : Handle) (out : List Command) : Prop :=
  ∃ news,
    (s'.handles.get? handle = some r ∧ concerning handle out = due handle r news ∧
      (s.view? handle r).bind (·.replay? news) = s'.view? handle r) ∨
    (s'.handles.get? handle = none ∧ concerning handle out = due handle r news ++ [.retire handle] ∧
      ∃ v, (s.view? handle r).bind (·.replay? news) = some v ∧ v.holds = false)

/-- What is handed over between two states is what handles are to be told. -/
structure Report (s s' : State) (out : List Command) : Prop where
  outbox : s'.outbox = s.outbox ++ out
  absent : ∀ h, s.handles.get? h = none → s'.handles.get? h = none ∧ concerning h out = []
  fate : ∀ h r, s.handles.get? h = some r → s.Fate s' h r out

/-- Handles are told what they are to be told. -/
def Reports (s s' : State) : Prop := ∃ out, s.Report s' out

/-- A handle stays as it is while nothing is handed over. -/
lemma Fate.refl (open' : s.handles.get? handle = some r) : s.Fate s handle r [] := by
  refine ⟨[], .inl ⟨open', rfl, ?_⟩⟩
  cases s.view? handle r <;> rfl

/-- What comes after may announce what it likes. -/
lemma Fate.of_sameTables (fate : s₁.Fate s₂ handle r out) (same : s₂.SameTables s₃) :
    s₁.Fate s₃ handle r out := by
  cases s₂
  cases s₃
  obtain ⟨rfl, rfl, rfl, rfl, rfl⟩ := same
  exact fate

/-- A handle that is still open is the one it was. -/
lemma Fate.same {r' : Handle} (fate : s₁.Fate s₂ handle r out)
    (found : s₂.handles.get? handle = some r') : r' = r := by
  obtain ⟨news, ⟨still, -, -⟩ | ⟨gone, -, -⟩⟩ := fate
  · exact Option.some.inj (found.symm.trans still)
  · exact nomatch gone.symm.trans found

/-- A handle that has ended is told nothing more. -/
lemma Fate.ended (fate : s₁.Fate s₂ handle r out) (gone : s₂.handles.get? handle = none)
    (gone' : s₃.handles.get? handle = none) (silent : concerning handle out' = []) :
    s₁.Fate s₃ handle r (out ++ out') := by
  obtain ⟨news, ⟨open', -, -⟩ | ⟨-, told, holds⟩⟩ := fate
  · exact nomatch gone.symm.trans open'
  · refine ⟨news, .inr ⟨gone', ?_, holds⟩⟩
    rw [concerning_append, silent, List.append_nil, told]

/-- What becomes of a handle that was still open in between. -/
lemma Fate.trans (fate : s₁.Fate s₂ handle r out) (still : s₂.handles.get? handle = some r)
    (fate' : s₂.Fate s₃ handle r out') : s₁.Fate s₃ handle r (out ++ out') := by
  obtain ⟨news, ⟨-, told, seen⟩ | ⟨gone, -, -⟩⟩ := fate
  · have both : ∀ news', (s₁.view? handle r).bind (·.replay? (news ++ news')) =
        (s₂.view? handle r).bind (·.replay? news') := by
      intro news'
      rw [← seen, Option.bind_assoc]
      exact congrArg _ (funext fun v => View.replay?_append)
    obtain ⟨news', ⟨still', told', seen'⟩ | ⟨gone', told', v, seen', free⟩⟩ := fate'
    · refine ⟨news ++ news', .inl ⟨still', ?_, (both _).trans seen'⟩⟩
      rw [concerning_append, told, told', due_append]
    · refine ⟨news ++ news', .inr ⟨gone', ?_, v, (both _).trans seen', free⟩⟩
      rw [concerning_append, told, told', due_append, List.append_assoc]
  · exact nomatch gone.symm.trans still

/-- Nothing happens and nothing is handed over. -/
lemma Reports.refl (s : State) : s.Reports s :=
  ⟨[], (List.append_nil _).symm, fun _ absent => ⟨absent, rfl⟩, fun _ _ found => .refl found⟩

/-- What is announced in two steps. -/
lemma Reports.trans (report : s₁.Reports s₂) (report' : s₂.Reports s₃) : s₁.Reports s₃ := by
  obtain ⟨out, first⟩ := report
  obtain ⟨out', later⟩ := report'
  refine ⟨out ++ out', ?_, ?_, ?_⟩
  · rw [later.outbox, first.outbox, List.append_assoc]
  · intro h absent
    obtain ⟨absent', silent⟩ := first.absent h absent
    obtain ⟨absent'', silent'⟩ := later.absent h absent'
    exact ⟨absent'', by rw [concerning_append, silent, silent']; rfl⟩
  · intro h r found
    have fate := first.fate h r found
    cases found' : s₂.handles.get? h with
    | none =>
      obtain ⟨gone', silent⟩ := later.absent h found'
      exact fate.ended found' gone' silent
    | some r' =>
      obtain rfl : r' = r := fate.same found'
      exact fate.trans found' (later.fate h r' found')

/-- The handles of a list are told a piece of news, and for the others nothing has changed. -/
lemma reports_of_tellings (list : List HandleId) (n : Notification) (apart : list.Nodup)
    (handles : s'.handles = s.handles)
    (outbox : s'.outbox = s.outbox ++ list.flatMap (telling s.handles n))
    (told : ∀ h r, s.handles.get? h = some r → h ∈ list →
      (s.view? h r).bind (·.after? n) = s'.view? h r)
    (untold : ∀ h r, s.handles.get? h = some r → h ∉ list → s'.view? h r = s.view? h r) :
    s.Reports s' := by
  refine ⟨_, outbox, ?_, ?_⟩
  · intro h absent
    refine ⟨handles ▸ absent, ?_⟩
    rw [concerning_tellings apart]
    simp [telling, absent]
  · intro h r found
    by_cases mem : h ∈ list
    · refine ⟨[n], .inl ⟨handles ▸ found, ?_, ?_⟩⟩
      · rw [concerning_tellings apart, if_pos mem, telling, found]
      · rw [← told h r found mem]
        refine congrArg _ (funext fun v => ?_)
        exact Option.bind_fun_some _
    · refine ⟨[], .inl ⟨handles ▸ found, ?_, ?_⟩⟩
      · rw [concerning_tellings apart, if_neg mem]
        rfl
      · rw [untold h r found mem]
        cases s.view? h r <;> rfl

/-- Nobody is told anything, because nothing has changed for anyone. -/
lemma reports_of_quiet (handles : s'.handles = s.handles) (outbox : s'.outbox = s.outbox)
    (views : ∀ h r, s.handles.get? h = some r → s'.view? h r = s.view? h r) : s.Reports s' :=
  reports_of_tellings [] .lockAcquired List.nodup_nil handles
    (by simpa using outbox) (fun _ _ _ mem => nomatch mem) fun h r found _ => views h r found

/-- A handle that does not hold its lock ends, and for the others nothing has changed. -/
lemma reports_of_close (found : s.handles.get? handle = some r)
    (handles : ∀ h, s'.handles.get? h = if h = handle then none else s.handles.get? h)
    (outbox : s'.outbox = s.outbox ++ [.retire handle])
    (free : ∃ v, s.view? handle r = some v ∧ v.holds = false)
    (views : ∀ h r, s.handles.get? h = some r → h ≠ handle → s'.view? h r = s.view? h r) :
    s.Reports s' := by
  refine ⟨_, outbox, ?_, ?_⟩
  · intro h absent
    have other : h ≠ handle := by
      rintro rfl
      exact nomatch absent.symm.trans found
    rw [handles, if_neg other]
    refine ⟨absent, concerning_eq_nil fun c mem => ?_⟩
    rw [List.mem_singleton.mp mem]
    exact other.symm
  · intro h r' found'
    by_cases eq : h = handle
    · subst eq
      obtain rfl := Option.some.inj (found'.symm.trans found)
      obtain ⟨v, seen, idle⟩ := free
      refine ⟨[], .inr ⟨(handles h).trans (if_pos rfl), ?_, v, ?_, idle⟩⟩
      · refine concerning_eq_self fun c mem => ?_
        rw [List.mem_singleton.mp mem]
        rfl
      · rw [seen]
        rfl
    · refine ⟨[], .inl ⟨?_, concerning_eq_nil fun c mem => ?_, ?_⟩⟩
      · rw [handles, if_neg eq, found']
      · rw [List.mem_singleton.mp mem]
        exact Ne.symm eq
      · rw [views h r' found' eq]
        cases s.view? h r' <;> rfl

end State

end Coordination
