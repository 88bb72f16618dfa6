import Coordination.Proofs.Coordinator.Atomicity
import Coordination.Proofs.Coordinator.Reports
import Coordination.Proofs.Coordinator.Turnover

/-!
# The record of a run

A `Journal` is a run together with what was asked and what came of it, call by call, and with that
all commands that were handed over, in their order. `Chronicle` reads from a journal what has
become of every handle: nothing is said of a handle before it is opened, and from then on its
commands are those of its `Fate`.
-/

namespace Coordination

/-- A call and what came of it. -/
structure Exchange where
  call : Call
  outcome : Outcome Answer

namespace Exchange

/-- A call is answered by a new handle. -/
def Answers (x : Exchange) (handle : HandleId) : Prop := x.outcome.result = .ok (.handle handle)

/-- A call opens a handle for a session, on the node that is then at the path asked for. -/
structure Opens (x : Exchange) (handle : HandleId) (r : Handle) : Prop where
  answered : x.Answers handle
  asked : ∃ path flags, x.call = .openHandle r.session path flags r.interest r.callback ∧
    x.outcome.coordinator.state.tree.find? path = some r.node

/-- A call opens one handle. -/
lemma Opens.unique {x : Exchange} {handle : HandleId} {r r' : Handle} (opens : x.Opens handle r)
    (opens' : x.Opens handle r') : r = r' := by
  obtain ⟨path, flags, asked, found⟩ := opens.asked
  obtain ⟨path', flags', asked', found'⟩ := opens'.asked
  cases r
  cases r'
  obtain ⟨rfl, rfl, -, rfl, rfl⟩ := Call.openHandle.inj (asked.symm.trans asked')
  obtain rfl := Option.some.inj (found.symm.trans found')
  rfl

end Exchange

namespace Coordinator

/-- A run and its record, if all faults of the store are among `allowed`. -/
inductive Journal (allowed : Set Fault) : List Exchange → Coordinator → Prop
  | new (terms : LeaseTerms) (now : Instant) {fault : StoreCall → Option Fault}
      (may : ∀ kind f, fault kind = some f → f ∈ allowed) :
      Journal allowed [] (new terms now ⟨.empty, fault⟩)
  | recover {terms : LeaseTerms} {now : Instant} {store : Store} {c : Coordinator}
      (may : ∀ kind f, store.fault kind = some f → f ∈ allowed)
      (recovered : Coordinator.recover terms now store = .ok c) : Journal allowed [] c
  | perform {log : List Exchange} {c : Coordinator} (kept : Journal allowed log c) (now : Instant)
      (call : Call) {fault : StoreCall → Option Fault}
      (may : ∀ kind f, fault kind = some f → f ∈ allowed) :
      Journal allowed (log ++ [⟨call, (c.withFaults fault).perform now call⟩])
        ((c.withFaults fault).perform now call).coordinator

/-- The commands handed over in the course of a record. -/
def commands (log : List Exchange) : List Command := log.flatMap (·.outcome.commands)

variable {allowed : Set Fault} {c c' : Coordinator} {log before since : List Exchange}
variable {x o : Exchange} {handle h : HandleId} {r : Handle}

/-- What two parts of a run hand over. -/
lemma commands_append : commands (before ++ since) = commands before ++ commands since :=
  List.flatMap_append

/-- What one exchange hands over. -/
lemma commands_singleton : commands [x] = x.outcome.commands := List.flatMap_singleton ..

/-- A run with a record is a run. -/
lemma Journal.reachable (kept : Journal allowed log c) : c.Reachable allowed := by
  induction kept with
  | new terms now may => exact .new terms now may
  | recover may recovered => exact .recover may recovered
  | perform kept now call may ih => exact ih.perform now call may

/-- Every run has a record. -/
lemma Reachable.journal (reached : c.Reachable allowed) : ∃ log, Journal allowed log c := by
  induction reached with
  | new terms now may => exact ⟨[], .new terms now may⟩
  | recover may recovered => exact ⟨[], .recover may recovered⟩
  | perform reached now call may ih =>
    obtain ⟨log, kept⟩ := ih
    exact ⟨_, kept.perform now call may⟩

/-- The record of calls that nothing stops. -/
def exchanges (c : Coordinator) : List Call → List Exchange
  | [] => []
  | call :: rest =>
    let outcome := (c.withFaults fun _ => none).perform 0 call
    ⟨call, outcome⟩ :: outcome.coordinator.exchanges rest

/-- The record of a run goes on with more calls. -/
lemma Journal.calls (kept : Journal allowed log c) (calls : List Call) :
    Journal allowed (log ++ c.exchanges calls) (calls.foldl (fun c call =>
      ((c.withFaults fun _ => none).perform 0 call).coordinator) c) := by
  induction calls generalizing log c with
  | nil => exact (List.append_nil log).symm ▸ kept
  | cons call rest ih =>
    have next : Journal allowed (log ++ [⟨call, (c.withFaults fun _ => none).perform 0 call⟩]) _ :=
      kept.perform 0 call nofun
    exact List.append_cons .. ▸ ih next

/-- A new coordinator and the record of calls that nothing stops. -/
lemma journal_after (calls : List Call) :
    Journal allowed ((after []).exchanges calls) (after calls) := by
  have start : Journal allowed [] (after []) := .new _ _ (by simp)
  exact start.calls calls

/-! ## One call -/

/-- A call that is done hands over what it announced. One that fails hands nothing over and leaves
no trace but the contact of its caller, whatever the store does. -/
lemma perform_told (sound : c.state.Sound) (sent : c.state.outbox = []) (now : Instant)
    (call : Call) : (∃ answer s', c.state.Done now call answer s' ∧
        (c.perform now call).result = .ok answer ∧
        (c.perform now call).coordinator.state = { s' with outbox := [] } ∧
        (c.perform now call).commands = s'.outbox) ∨
      ((∀ answer, (c.perform now call).result ≠ .ok answer) ∧
        (∃ caller, c.state.Spares caller (c.perform now call).coordinator.state) ∧
        (c.perform now call).commands = []) := by
  rcases perform_outcome sound now call with
    done | ⟨unanswered, ⟨same, silent⟩ | ⟨e, s', failed, state, silent⟩⟩
  · exact .inl done
  · rw [same]
    exact .inr ⟨unanswered, ⟨none, .refl _ _⟩, silent⟩
  · obtain ⟨spares, outbox⟩ := failed.spares
    rw [state]
    refine .inr ⟨unanswered, ⟨_, spares.with_outbox []⟩, ?_⟩
    rcases silent with silent | silent
    · exact silent
    · rw [silent, outbox, sent]

end Coordinator

namespace State

variable {s s' : State} {now : Instant} {call : Call} {answer : Answer} {handle : HandleId}
variable {r : Handle}

/-- What is done is reported, and if it opens a handle, that comes last and unannounced. -/
lemma Sound.reports_done (sound : s.Sound) (done : s.Done now call answer s') :
    (s.Reports s' ∧ ∀ h, answer ≠ .handle h) ∨
    ∃ t r path flags, s.Reports t ∧ t.Sound ∧ t.handles = s.handles ∧ s' = t.seated r ∧
      answer = .handle s.handles.next ∧
      call = .openHandle r.session path flags r.interest r.callback ∧
      s'.tree.find? path = some r.node := by
  have contacted : ∀ caller, s.Reports (s.contacted caller now) :=
    fun caller => reports_of_quiet rfl rfl fun _ _ _ => rfl
  have stored : ∀ caller st, s.Reports ((s.contacted caller now).withStore st) :=
    fun caller st => reports_of_quiet rfl rfl fun _ _ _ => rfl
  have sound₁ := fun caller => sound.contacted caller now
  have sound₂ := fun caller st => (sound₁ caller).withStore st
  cases done with
  | createSession => exact .inl ⟨reports_of_quiet rfl rfl fun _ _ _ => rfl, nofun⟩
  | keepalive => exact .inl ⟨contacted _, nofun⟩
  | destroySession => exact .inl ⟨sound.reports_destroyed _, nofun⟩
  | expireSessions as_of => exact .inl ⟨sound.reports_expired as_of, nofun⟩
  | @openHandle session path flags interest callback node live valid found =>
    exact .inr ⟨s.contacted session now, ⟨session, node, interest, callback⟩, path, flags,
      contacted _, sound₁ _, rfl, rfl, rfl, rfl, found⟩
  | @openNew session path flags interest callback above st live asked checked =>
    let t := ((s.contacted session now).withStore st).grown above path (flags.meets .directory)
      (flags.meets .ephemeral)
    have same : State.SameTables _ t := sameTables_grown ..
    have foundNew : t.tree.find? path = some s.tree.next := by
      rw [same.tree]
      exact (Tree.find?_grow _ _ path).trans (if_pos rfl)
    exact .inr ⟨t, ⟨session, s.tree.next, interest, callback⟩, path, flags,
      (stored _ st).trans ((sound₂ _ st).linked.reports_grown checked), (sound₂ _ st).grown checked,
      same.handles, rfl, rfl, rfl, foundNew⟩
  | close owns => exact .inl ⟨(contacted _).trans ((sound₁ _).reports_closed owns.found), nofun⟩
  | mkdir live checked =>
    exact .inl ⟨(stored _ _).trans ((sound₂ _ _).linked.reports_grown checked), nofun⟩
  | delete live checked node foundAbove =>
    exact .inl ⟨(stored _ _).trans ((sound₂ _ _).reports_deleted checked node foundAbove), nofun⟩
  | pathExists => exact .inl ⟨contacted _, nofun⟩
  | readdir => exact .inl ⟨contacted _, nofun⟩
  | @attrSet session handle r n name value st owns node =>
    have fits : n.names.after? (.attrSet name) = some (n.setAttr name value).names := by
      rw [Node.names, Node.names, Node.setAttr, FinMap.domain_insert]
      rfl
    exact .inl ⟨(stored _ st).trans ((sound₂ session st).linked.reports_edited node rfl fits
      fun _ => rfl), nofun⟩
  | attrGet => exact .inl ⟨contacted _, nofun⟩
  | @attrDel session handle r n name st owns node found =>
    have fits : n.names.after? (.attrDel name) = some (n.dropAttr name).names := by
      rw [Node.names, Node.names, Node.dropAttr, FinMap.domain_erase]
      exact if_pos (FinMap.mem_domain.mpr found)
    exact .inl ⟨(stored _ st).trans ((sound₂ session st).linked.reports_edited node rfl fits
      fun _ => rfl), nofun⟩
  | attrExists => exact .inl ⟨contacted _, nofun⟩
  | attrList => exact .inl ⟨contacted _, nofun⟩
  | lockGranted owns asks fresh =>
    exact .inl ⟨(contacted _).trans ((sound₁ _).reports_granted owns.found fresh), nofun⟩
  | lockQueued => exact .inl ⟨(contacted _).trans reports_queued, nofun⟩
  | tryLock owns asks fresh =>
    exact .inl ⟨(contacted _).trans ((sound₁ _).reports_granted owns.found fresh), nofun⟩
  | release owns held =>
    exact .inl ⟨(contacted _).trans ((sound₁ _).linked.reports_released owns.found held), nofun⟩
  | lockInfo => exact .inl ⟨.refl s, nofun⟩
  | sizes => exact .inl ⟨.refl s, nofun⟩
  | checkLocks => exact .inl ⟨.refl s, nofun⟩

/-- Those who have a handle do not notice a new one. -/
lemma Linked.fate_seated (linked : s.Linked) (found : s.handles.get? handle = some r)
    (r' : Handle) : s.Fate (s.seated r') handle r [] := by
  have look : (s.seated r').tree.get? r.node =
      if r.node = r'.node then (s.tree.get? r.node).map (·.addHandle s.handles.next)
      else s.tree.get? r.node := Tree.get?_modify _ _
  refine ⟨[], .inl ⟨linked.handle_seated found, rfl, ?_⟩⟩
  rw [view?, view?, look]
  cases s.tree.get? r.node with
  | none => split <;> rfl
  | some n => split <;> rfl

end State

namespace Coordinator

variable {allowed : Set Fault} {c c' : Coordinator} {log before since : List Exchange}
variable {x o : Exchange} {handle h : HandleId} {r : Handle}

/-- What one call means to those who have a handle, to those who have none, and to the one who
opens one. -/
structure Stride (c : Coordinator) (x : Exchange) : Prop where
  known : ∀ h r, c.state.handles.get? h = some r →
    c.state.Fate x.outcome.coordinator.state h r x.outcome.commands
  unknown : ∀ h, c.state.handles.get? h = none → concerning h x.outcome.commands = [] ∧
    (x.outcome.coordinator.state.handles.get? h = none ∨ x.Answers h)
  answered : ∀ h, x.Answers h → h = c.state.handles.next ∧ ∃ r, x.Opens h r ∧
    x.outcome.coordinator.state.handles.get? h = some r ∧
    ∃ v, x.outcome.coordinator.state.view? h r = some v ∧ v.holds = false
  used : ∀ h, h < c.state.handles.next ∨ x.Answers h → h < x.outcome.coordinator.state.handles.next

/-- A call that opens no handle reports to those who have one. -/
lemma stride_of_report {s' : State} (report : c.state.Report s' x.outcome.commands)
    (same : s'.SameTables x.outcome.coordinator.state) (unanswered : ∀ h, ¬ x.Answers h)
    (spent : ∀ h, h < c.state.handles.next → h < x.outcome.coordinator.state.handles.next) :
    c.Stride x where
  known := fun h r found => (report.fate h r found).of_sameTables same
  unknown := by
    intro h absent
    obtain ⟨gone, silent⟩ := report.absent h absent
    exact ⟨silent, .inl (same.handles ▸ gone)⟩
  answered := fun h answers => absurd answers (unanswered h)
  used := fun h used => used.elim (spent h) fun answers => absurd answers (unanswered h)

/-- A call that opens a handle does so after those who had one have been told. -/
lemma stride_of_seated {t : State} (report : c.state.Report t x.outcome.commands)
    (linked : t.Linked) (handles : t.handles = c.state.handles)
    (same : (t.seated r).SameTables x.outcome.coordinator.state)
    (linked' : x.outcome.coordinator.state.Linked) (opens : x.Opens c.state.handles.next r)
    (spent : ∀ h, h < c.state.handles.next → h < x.outcome.coordinator.state.handles.next) :
    c.Stride x := by
  have answers : ∀ h, x.Answers h → h = c.state.handles.next :=
    fun h answers => (Answer.handle.inj (Except.ok.inj (opens.answered.symm.trans answers))).symm
  have look : ∀ h, x.outcome.coordinator.state.handles.get? h =
      if h = c.state.handles.next then some r else c.state.handles.get? h := by
    intro h
    rw [same.handles, State.handle_seated, handles]
  have seat := (look c.state.handles.next).trans (if_pos rfl)
  refine ⟨?_, ?_, ?_, ?_⟩
  · intro h r' found
    have stays : t.handles.get? h = some r' := handles ▸ found
    have fate := (report.fate h r' found).trans stays (linked.fate_seated stays r)
    rw [List.append_nil] at fate
    exact fate.of_sameTables same
  · intro h absent
    refine ⟨(report.absent h absent).2, ?_⟩
    by_cases new : h = c.state.handles.next
    · exact .inr (new ▸ opens.answered)
    · exact .inl ((look h).trans ((if_neg new).trans absent))
  · intro h opened
    obtain rfl := answers h opened
    obtain ⟨n, node, -⟩ := linked'.node_of_handle _ r seat
    refine ⟨rfl, r, opens, seat, _, State.view?_of_node node, Bool.eq_false_iff.mpr fun holds => ?_⟩
    -- nobody held a lock through a handle that was not open
    rw [same.locks] at holds
    obtain ⟨holder, mem, eq⟩ := LockState.isHolder_iff.mp holds
    obtain ⟨r', found, -⟩ := linked.handle_of_holder mem
    rw [eq] at found
    have used := linked.fresh_handle _ r' found
    rw [handles] at used
    exact StrictOrder.irrefl _ used
  · rintro h (used | opened)
    · exact spent h used
    · obtain rfl := answers h opened
      exact linked'.fresh_handle _ r seat

/-- Every call is such a stride. -/
lemma stride_perform (sound : c.state.Sound) (sent : c.state.outbox = []) (now : Instant)
    (call : Call) : c.Stride ⟨call, c.perform now call⟩ := by
  obtain ⟨sound', turnover⟩ := turnover_perform sound c.state.store.fault now call
  have spent := fun h used => (turnover.handles.spent h used).1
  rcases perform_told sound sent now call with
    ⟨answer, s', deed, result, state, told⟩ | ⟨undone, ⟨caller, spares⟩, told⟩
  · have left : s'.SameTables (c.perform now call).coordinator.state := by
      rw [state]
      exact ⟨rfl, rfl, rfl, rfl, rfl⟩
    have announced : ∀ {out t}, c.state.Report t out → t.outbox = s'.outbox →
        c.state.Report t (c.perform now call).commands := by
      intro out t report outbox
      have eq := report.outbox
      rw [sent, List.nil_append, outbox, ← told] at eq
      exact eq ▸ report
    rcases sound.reports_done deed with ⟨⟨out, report⟩, closed⟩ |
      ⟨t, r, path, flags, ⟨out, report⟩, soundT, handles, rfl, rfl, asked, foundAt⟩
    · refine stride_of_report (announced report rfl) left (fun h answers => ?_) spent
      exact closed h (Except.ok.inj (result.symm.trans answers))
    · refine stride_of_seated (announced report rfl) soundT.linked handles left sound'.linked
        ⟨result, path, flags, asked, ?_⟩ spent
      dsimp only
      rw [left.tree]
      exact foundAt
  · have quiet : ∀ h r, c.state.handles.get? h = some r →
        (c.perform now call).coordinator.state.view? h r = c.state.view? h r :=
      fun h r _ => State.view?_congr (by rw [spares.tree]) (by rw [spares.locks])
    have report : c.state.Report { (c.perform now call).coordinator.state with outbox := [] }
        (c.perform now call).commands := by
      have reports : c.state.Reports
          { (c.perform now call).coordinator.state with outbox := c.state.outbox } :=
        State.reports_of_quiet spares.handles rfl quiet
      obtain ⟨out, report⟩ := reports
      obtain rfl : out = [] := List.self_eq_append_right.mp report.outbox
      rw [sent] at report
      rw [told]
      exact report
    have unanswered := fun h answers => undone (.handle h) answers
    exact stride_of_report report ⟨rfl, rfl, rfl, rfl, rfl⟩ unanswered spent

/-! ## All calls -/

/-- What is known of a handle that was opened by a call: nothing was said of it until then, and
what was said since is its fate. -/
structure Followed (before : List Exchange) (o : Exchange) (since : List Exchange)
    (c : Coordinator) (handle : HandleId) (r : Handle) : Prop where
  opens : o.Opens handle r
  silent : concerning handle (commands (before ++ [o])) = []
  start : ∃ v, o.outcome.coordinator.state.view? handle r = some v ∧ v.holds = false
  fate : o.outcome.coordinator.state.Fate c.state handle r (commands since)

/-- What a record says of all handles. -/
structure Chronicle (log : List Exchange) (c : Coordinator) : Prop where
  used : ∀ x ∈ log, ∀ h, x.Answers h → h < c.state.handles.next
  unopened : ∀ h, (∀ x ∈ log, ¬ x.Answers h) →
    c.state.handles.get? h = none ∧ concerning h (commands log) = []
  opened : ∀ before o since h, log = before ++ o :: since → o.Answers h →
    ∃ r, Followed before o since c h r

/-- Before anything is recorded no handle is open. -/
lemma chronicle_nil (bare : ∀ h, c.state.handles.get? h = none) : Chronicle [] c where
  used := fun _ mem => nomatch mem
  unopened := fun h _ => ⟨bare h, rfl⟩
  opened := fun before o since h eq => by simp at eq

/-- The fate of a handle goes on with every call. -/
lemma Followed.extend (followed : Followed before o since c h r) (stride : c.Stride x)
    (old : h < c.state.handles.next) :
    Followed before o (since ++ [x]) x.outcome.coordinator h r := by
  refine ⟨followed.opens, followed.silent, followed.start, ?_⟩
  have fate := followed.fate
  rw [commands_append, commands_singleton]
  cases found : c.state.handles.get? h with
  | none =>
    obtain ⟨silent, gone | answers⟩ := stride.unknown h found
    · exact fate.ended found gone silent
    · rw [(stride.answered h answers).1] at old
      exact absurd old (StrictOrder.irrefl _)
  | some r' =>
    obtain rfl : r' = r := fate.same found
    exact fate.trans found (stride.known h r' found)

/-- A record goes on with a call. -/
lemma Chronicle.extend (chronicle : Chronicle log c) (stride : c.Stride x) :
    Chronicle (log ++ [x]) x.outcome.coordinator where
  used := by
    intro y mem h answers
    rcases List.mem_append.mp mem with mem | mem
    · exact stride.used h (.inl (chronicle.used y mem h answers))
    · obtain rfl := List.mem_singleton.mp mem
      exact stride.used h (.inr answers)
  unopened := by
    intro h none
    obtain ⟨absent, silent⟩ :=
      chronicle.unopened h fun y mem => none y (List.mem_append_left _ mem)
    obtain ⟨silent', gone | answers⟩ := stride.unknown h absent
    · refine ⟨gone, ?_⟩
      rw [commands_append, commands_singleton, concerning_append, silent, silent']
      rfl
    · exact absurd answers (none x (List.mem_append_right _ (List.mem_singleton_self _)))
  opened := by
    intro before o since h eq answers
    rcases List.eq_nil_or_concat since with rfl | ⟨since', y, rfl⟩
    · -- the last call opens the handle
      obtain ⟨rfl, rfl⟩ : log = before ∧ x = o := by simpa using eq
      obtain ⟨new, r, opens, seat, start⟩ := stride.answered h answers
      have fresh : ∀ y ∈ log, ¬ y.Answers h := by
        intro y mem earlier
        have less := chronicle.used y mem h earlier
        rw [new] at less
        exact StrictOrder.irrefl _ less
      obtain ⟨absent, silent⟩ := chronicle.unopened h fresh
      refine ⟨r, opens, ?_, start, .refl seat⟩
      rw [commands_append, commands_singleton, concerning_append, silent,
        (stride.unknown h absent).1]
      rfl
    · obtain ⟨whole, rfl⟩ : log = before ++ o :: since' ∧ x = y := by
        rw [List.concat_eq_append, ← List.cons_append, ← List.append_assoc] at eq
        exact ⟨(List.append_inj' eq rfl).1, (List.cons.inj (List.append_inj' eq rfl).2).1⟩
      obtain ⟨r, followed⟩ := chronicle.opened before o since' h whole answers
      have old := chronicle.used o (by simp [whole]) h answers
      rw [List.concat_eq_append]
      exact ⟨r, followed.extend stride old⟩

/-- Whatever the store does, the record of a run says what has become of every handle. -/
lemma Journal.chronicle (kept : Journal allowed log c) : Chronicle log c := by
  induction kept with
  | new => exact chronicle_nil fun _ => rfl
  | recover may recovered =>
    obtain ⟨tree, st, -, rfl⟩ := recover_eq_ok recovered
    exact chronicle_nil fun _ => rfl
  | @perform log c kept now call fault may ih =>
    have sound : (c.withFaults fault).state.Sound := kept.reachable.sound.withStore _
    have same : Chronicle log (c.withFaults fault) :=
      ⟨ih.used, ih.unopened, fun before o since h eq answers => by
        obtain ⟨r, opens, silent, start, fate⟩ := ih.opened before o since h eq answers
        exact ⟨r, opens, silent, start, fate⟩⟩
    exact same.extend (stride_perform sound kept.reachable.outbox_eq_nil now call)

/-! ## The course of a handle -/

/-- What has happened at the node of a handle since it was opened, and what its owner was told. -/
structure Course (before : List Exchange) (o : Exchange) (since : List Exchange) (c : Coordinator)
    (handle : HandleId) (r : Handle) (first last : View) (news : List Notification) : Prop
    extends Followed before o since c handle r where
  first_eq : o.outcome.coordinator.state.view? handle r = some first
  free : first.holds = false
  seen : first.replay? news = some last
  told : concerning handle (commands (before ++ o :: since)) = due handle r news ++
    if (c.state.handles.get? handle).isSome then [] else [.retire handle]
  now : ∀ r', c.state.handles.get? handle = some r' → r' = r ∧ c.state.view? handle r = some last
  ended : c.state.handles.get? handle = none → last.holds = false

/-- A handle that was followed since it was opened has a course. -/
lemma Followed.course (followed : Followed before o since c h r) (linked : c.state.Linked) :
    ∃ first last news, Course before o since c h r first last news := by
  have whole : concerning h (commands (before ++ o :: since)) = concerning h (commands since) := by
    rw [List.append_cons, commands_append, concerning_append, followed.silent, List.nil_append]
  obtain ⟨first, start, free⟩ := followed.start
  obtain ⟨news, ⟨still, told, seen⟩ | ⟨gone, told, last, seen, idle⟩⟩ := followed.fate
  · obtain ⟨n, node, -⟩ := linked.node_of_handle h r still
    have now := State.view?_of_node (h := h) node
    rw [start, now] at seen
    refine ⟨first, _, news, followed, start, free, seen, ?_, ?_, ?_⟩
    · simp [whole, told, still]
    · exact fun r' found => ⟨Option.some.inj (found.symm.trans still), now⟩
    · exact fun gone => nomatch gone.symm.trans still
  · rw [start] at seen
    refine ⟨first, last, news, followed, start, free, seen, ?_, ?_, fun _ => idle⟩
    · simp [whole, told, gone]
    · exact fun r' found => nomatch gone.symm.trans found

/-- Every handle that was opened has had its course. -/
lemma Journal.course (kept : Journal allowed (before ++ o :: since) c) (opens : o.Opens h r) :
    ∃ first last news, Course before o since c h r first last news := by
  obtain ⟨r', followed⟩ := kept.chronicle.opened before o since h rfl opens.answered
  obtain rfl := opens.unique followed.opens
  exact followed.course kept.reachable.sound.linked

end Coordinator

end Coordination
