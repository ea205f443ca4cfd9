import NewtuaPy.Handshake

/-!
# Interrupts in the handshake

`_open_pipe_posix` where a `KeyboardInterrupt` may surface at any point of the
`try` block: before `open_stream` is entered, or on its return.  The clean-up
takes every exception to mean that the writing end was not taken over.  Before
the call that is so.  After a return it is not: the worker owns the descriptor
then, and the clean-up closes it under the worker's hands, closes what has the
number by then, or fails on it and never comes to the release.
-/

namespace NewtuaPy

namespace Handshake

/-- What a run that is over has to have done: the writing end is closed once, by
its owner, the reading end and the claim are given up once by a caller that
fails, and are kept for the stream by one that does not. -/
structure Owned (s : State) : Prop where
  write : s.writeClosers = [s.closer]
  misuse : s.misuse = false
  outcome :
    s.caller = .raised ∧ s.readCloses = 1 ∧ s.streams = 0 ∧ s.holds = s.tempfile.toNat ∧
        s.releases = s.tempfile.toNat ∨
      s.caller = .opened ∧ s.readCloses = 0 ∧ s.streams = 1 ∧ s.holds = s.tempfile.toNat ∧
        s.releases = 0

/-- An interrupt finds `open_stream` not yet entered or no temp file to release, and the
number of a descriptor that the worker has taken over is unused when the clean-up closes it. -/
def Harmless (s : State) (a : Act) : Prop :=
  (a = .interrupt → s.caller = .held ∨ s.tempfile = false) ∧
    (a = .closeWrite → s.sent ≠ some .ok)

instance (s : State) (a : Act) : Decidable (Harmless s a) :=
  inferInstanceAs (Decidable (_ ∧ _))

/-- An interrupt that came on the return of `open_stream` and has done no harm: there is no
claim, and the caller has not closed the worker's descriptor. -/
structure Spared (s : State) : Prop where
  sent : s.sent = some .ok
  tempfile : s.tempfile = false
  caller : s.caller = .raising ∨ s.caller = .readClosed ∨ s.caller = .raised
  worker : s.worker = .adopting ∨ s.worker = .writing ∨ s.worker = .gone
  raised : s.caller = .raised → s.worker = .gone
  writeClosers : s.writeClosers = if s.worker = .gone then [.worker] else []
  writeOpen : s.writeOpen = s.writeClosers.isEmpty
  readOpen : s.readOpen = decide (s.readCloses = 0)
  readCloses : s.readCloses = if s.caller = .raising then 0 else 1
  streams : s.streams = 0
  misuse : s.misuse = false
  holds : s.holds = 0
  releases : s.releases = 0

/-- An interrupt that did harm, or is about to: the worker owns the writing end, and the
caller has closed it all the same or has a claim that it will not give up otherwise. -/
structure Spoilt (s : State) : Prop where
  sent : s.sent = some .ok
  failing : s.caller.failing = true
  worker : s.worker = .adopting ∨ s.worker = .writing ∨ s.worker = .gone
  workerCloses : s.worker = .gone → .worker ∈ s.writeClosers
  callerCloses : s.caller = .writeClosed → .caller ∈ s.writeClosers
  harm : .caller ∈ s.writeClosers ∨ s.tempfile = true ∧ s.releases = 0

/-- From a state before any late interrupt, a step is one of a run without interrupts, or
it is the late interrupt. -/
theorem Inv.act_cases {s t : State} {a : Act} (h : Inv s) (step : act true s a = some t) :
    (∃ a', act false s a' = some t) ∧ Harmless s a ∨
      a = .interrupt ∧ s.caller = .returned ∧ t = { s with caller := .raising } := by
  by_cases interrupted : a = .interrupt
  · subst interrupted
    simp only [act, Option.ite_none_right_eq_some, Option.some.injEq] at step
    obtain ⟨⟨-, held | returned⟩, rfl⟩ := step
    · refine .inl ⟨⟨.refuse, ?_⟩, fun _ => .inl held, fun closing => ?_⟩
      · simp [act, held]
      · cases closing
    · exact .inr ⟨rfl, returned, rfl⟩
  · have timely : act false s a = some t := by
      cases a with
      | interrupt => exact absurd rfl interrupted
      | _ => exact step
    refine .inl ⟨⟨a, timely⟩, fun late => absurd late interrupted, fun closing => ?_⟩
    subst closing
    simp only [act, Option.ite_none_right_eq_some, Option.some.injEq] at step
    exact (h.fits.failed (by rw [step.1]; rfl)).1

/-- Nothing a caller does without interrupts is lost when they may come. -/
theorem act_true_of_false {s t : State} {a : Act} (step : act false s a = some t) :
    act true s a = some t := by
  cases a with
  | interrupt => simp [act] at step
  | _ => exact step

theorem Inv.not_spoilt {s : State} (h : Inv s) : ¬Spoilt s := by
  intro spoilt
  exact (h.fits.failed spoilt.failing).1 spoilt.sent

theorem Spared.not_spoilt {s : State} (h : Spared s) : ¬Spoilt s := by
  intro spoilt
  have closers := h.writeClosers
  rcases spoilt.harm with closed | ⟨spilled, -⟩
  · rw [closers] at closed
    split at closed <;> simp at closed
  · rw [h.tempfile] at spilled
    cases spilled

/-- The late interrupt of a source with no temp file. -/
theorem Inv.spared {s : State} (h : Inv s) (returned : s.caller = .returned)
    (unspilled : s.tempfile = false) : Spared { s with caller := .raising } := by
  obtain ⟨sent, worker⟩ := h.fits.returned (.inl returned)
  have writeClosers := h.writeClosers
  have readCloses := h.readCloses
  have streams := h.streams
  have holds := h.holds
  have releases := h.releases
  constructor
  case writeOpen => exact h.writeOpen
  case readOpen => exact h.readOpen
  case misuse => exact h.misuse
  all_goals simp_all [Caller.closedWrite, Caller.failing]

/-- The late interrupt of a source with a temp file. -/
theorem Inv.spoilt {s : State} (h : Inv s) (returned : s.caller = .returned)
    (spilled : s.tempfile = true) : Spoilt { s with caller := .raising } := by
  obtain ⟨sent, worker⟩ := h.fits.returned (.inl returned)
  have writeClosers := h.writeClosers
  have releases := h.releases
  refine ⟨sent, rfl, worker, fun gone => ?_, fun closed => ?_, .inr ⟨spilled, ?_⟩⟩
  · simp_all [Caller.closedWrite]
  · cases closed
  · simp_all

/-- Step lemma of a run that an interrupt has not harmed yet: the harm is done by closing
a descriptor that the worker has taken over, and by nothing else. -/
theorem Spared.step {s t : State} {a : Act} (h : Spared s) (step : act true s a = some t) :
    Spared t ∧ Harmless s a ∨ Spoilt t ∧ ¬Harmless s a := by
  by_cases closing : a = .closeWrite
  · subst closing
    simp only [act, Option.ite_none_right_eq_some, Option.some.injEq] at step
    obtain ⟨-, rfl⟩ := step
    have closed : Party.caller ∈ s.writeClosers ++ [.caller] :=
      List.mem_append_right _ List.mem_cons_self
    refine .inr ⟨?_, fun harmless => harmless.2 rfl h.sent⟩
    refine ⟨h.sent, rfl, h.worker, fun gone => ?_, fun _ => closed, .inl closed⟩
    change s.worker = .gone at gone
    simp [State.closeWrite, h.writeClosers, gone]
  have harmless : Harmless s a :=
    ⟨fun _ => .inr h.tempfile, fun same => absurd same closing⟩
  refine .inl ⟨?_, harmless⟩
  rcases s with ⟨tempfile, caller, worker, message, sent, archiveOpened, readOpen, readCloses,
    streams, writeOpen, writeClosers, misuse, holds, releases⟩
  obtain ⟨sent, unspilled, at', born, raised, writeClosers, writeOpen, readOpen, readCloses,
    streams, misuse, holds, releases⟩ := h
  dsimp only at *
  cases a with
  | closeRead =>
      simp only [act, Option.ite_none_right_eq_some, Option.some.injEq] at step
      obtain ⟨rfl, rfl⟩ := step
      constructor <;> simp_all [State.closeRead]
  | closeWrite => exact absurd rfl closing
  | closeWriteFails =>
      simp only [act, Option.ite_none_right_eq_some, Option.some.injEq] at step
      obtain ⟨⟨rfl, closed⟩, rfl⟩ := step
      have gone : worker = .gone := by
        by_contra going
        simp [writeClosers, going, closed] at writeOpen
      constructor <;> simp_all
  | adopt =>
      simp only [act, Option.ite_none_right_eq_some, Option.some.injEq] at step
      obtain ⟨rfl, rfl⟩ := step
      constructor <;> simp_all
  | write =>
      simp only [act, Option.ite_none_right_eq_some, Option.some.injEq] at step
      obtain ⟨rfl, rfl⟩ := step
      constructor <;> simp_all [State.writeChunk]
  | readEntry ending =>
      simp only [act, Option.ite_none_right_eq_some, Option.some.injEq] at step
      obtain ⟨rfl, rfl⟩ := step
      constructor <;> simp_all [State.closeWrite]
  | coreOpen ending =>
      simp only [act, Option.ite_none_right_eq_some] at step
      rcases born with rfl | rfl | rfl <;> simp at step
  | send => rcases born with rfl | rfl | rfl <;> simp [act] at step
  | _ =>
      simp only [act, Option.ite_none_right_eq_some] at step
      rcases at' with rfl | rfl | rfl <;> simp at step

/-- Step lemma of a run that is past saving. -/
theorem Spoilt.step {s t : State} {a : Act} (h : Spoilt s) (step : act true s a = some t) :
    Spoilt t := by
  obtain ⟨sent, failing, worker, workerCloses, callerCloses, harm⟩ := h
  cases a with
  | closeRead =>
      simp only [act, Option.ite_none_right_eq_some, Option.some.injEq] at step
      obtain ⟨-, rfl⟩ := step
      refine ⟨sent, rfl, worker, workerCloses, fun closed => ?_, harm⟩
      cases closed
  | closeWrite =>
      simp only [act, Option.ite_none_right_eq_some, Option.some.injEq] at step
      obtain ⟨-, rfl⟩ := step
      have closed : Party.caller ∈ s.writeClosers ++ [.caller] :=
        List.mem_append_right _ List.mem_cons_self
      refine ⟨sent, rfl, worker, fun gone => ?_, fun _ => closed, .inl closed⟩
      exact List.mem_append_left _ (workerCloses gone)
  | closeWriteFails =>
      simp only [act, Option.ite_none_right_eq_some, Option.some.injEq] at step
      obtain ⟨-, rfl⟩ := step
      refine ⟨sent, rfl, worker, workerCloses, fun closed => ?_, harm⟩
      cases closed
  | release =>
      simp only [act, Option.ite_none_right_eq_some, Option.some.injEq] at step
      obtain ⟨at', rfl⟩ := step
      refine ⟨sent, rfl, worker, workerCloses, fun closed => ?_, .inl (callerCloses at')⟩
      cases closed
  | adopt =>
      simp only [act, Option.ite_none_right_eq_some, Option.some.injEq] at step
      obtain ⟨-, rfl⟩ := step
      refine ⟨sent, failing, .inr (.inl rfl), fun gone => ?_, callerCloses, harm⟩
      cases gone
  | write =>
      simp only [act, Option.ite_none_right_eq_some, Option.some.injEq] at step
      obtain ⟨-, rfl⟩ := step
      exact ⟨sent, failing, worker, workerCloses, callerCloses, harm⟩
  | readEntry ending =>
      simp only [act, Option.ite_none_right_eq_some, Option.some.injEq] at step
      obtain ⟨-, rfl⟩ := step
      refine ⟨sent, failing, .inr (.inr rfl), fun _ => ?_, fun closed => ?_, ?_⟩
      · exact List.mem_append_right _ List.mem_cons_self
      · exact List.mem_append_left _ (callerCloses closed)
      · exact harm.imp_left (List.mem_append_left _)
  | interrupt =>
      simp only [act, Option.ite_none_right_eq_some, Option.some.injEq] at step
      obtain ⟨⟨-, at' | at'⟩, -⟩ := step <;> simp [at', Caller.failing] at failing
  | coreOpen ending =>
      simp only [act, Option.ite_none_right_eq_some] at step
      rcases worker with at' | at' | at' <;> simp [at'] at step
  | send =>
      rcases worker with at' | at' | at' <;> simp [act, at'] at step
  | _ =>
      simp only [act, Option.ite_none_right_eq_some] at step
      simp [step.1, Caller.failing] at failing

/-- A state that no interrupt has harmed. -/
def Unharmed (s : State) : Prop := Inv s ∨ Spared s

theorem Unharmed.not_spoilt {s : State} (h : Unharmed s) : ¬Spoilt s :=
  h.elim Inv.not_spoilt Spared.not_spoilt

/-- A step keeps an unharmed state so if it is harmless, and spoils it if it is not. -/
theorem Unharmed.step {s t : State} {a : Act} (h : Unharmed s) (step : act true s a = some t) :
    Unharmed t ∧ Harmless s a ∨ Spoilt t ∧ ¬Harmless s a := by
  rcases h with inv | spared
  · rcases inv.act_cases step with ⟨⟨a', step'⟩, harmless⟩ | ⟨rfl, returned, rfl⟩
    · exact .inl ⟨.inl (inv.step step'), harmless⟩
    · by_cases spilled : s.tempfile = true
      · refine .inr ⟨inv.spoilt returned spilled, fun harmless => ?_⟩
        have early := harmless.1 rfl
        simp [returned, spilled] at early
      · replace spilled : s.tempfile = false := by simpa using spilled
        refine .inl ⟨.inr (inv.spared returned spilled), fun _ => .inr spilled, fun closing => ?_⟩
        cases closing
  · exact (spared.step step).imp_left fun ⟨next, harmless⟩ => ⟨.inr next, harmless⟩

/-- Every state of the system is unharmed or spoilt, and a step spoils it exactly when it
is not harmless. -/
theorem unharmed_or_spoilt_step {s t : State} {a : Act} (h : Unharmed s ∨ Spoilt s)
    (step : act true s a = some t) :
    (Unharmed t ∨ Spoilt t) ∧ (Spoilt t ↔ Spoilt s ∨ ¬Harmless s a) := by
  rcases h with unharmed | spoilt
  · rcases unharmed.step step with ⟨next, harmless⟩ | ⟨next, harmful⟩
    · refine ⟨.inl next, iff_of_false next.not_spoilt ?_⟩
      rintro (spoilt | harmful)
      · exact unharmed.not_spoilt spoilt
      · exact harmful harmless
    · exact ⟨.inr next, iff_of_true next (.inr harmful)⟩
  · have next : Spoilt t := spoilt.step step
    exact ⟨.inr next, iff_of_true next (.inl spoilt)⟩

/-! ## Where a run ends -/

theorem Spoilt.not_owned {s : State} (h : Spoilt s) (stuck : ∀ a, act true s a = none) :
    ¬Owned s := by
  intro owned
  have byWorker : Party.worker ∈ s.writeClosers := by
    apply h.workerCloses
    have adopting := stuck .adopt
    have writing := stuck (.readEntry .ok)
    rcases h.worker with at' | at' | at'
    · simp [act, at'] at adopting
    · simp [act, at'] at writing
    · exact at'
  rcases h.harm with byCaller | ⟨spilled, unreleased⟩
  · -- closed by both
    rw [owned.write, List.mem_singleton] at byCaller byWorker
    cases byCaller.trans byWorker.symm
  · -- the claim is held for good
    have failing := h.failing
    rcases owned.outcome with ⟨-, -, -, -, released⟩ | ⟨at', -⟩
    · simp [spilled, unreleased] at released
    · simp [at', Caller.failing] at failing

theorem Inv.owned {s : State} (h : Inv s) (stuck : ∀ a, act true s a = none) : Owned s := by
  have settled : Settled s := h.settled fun a => by
    rcases step : act false s a with _ | t
    · rfl
    · cases (stuck a).symm.trans (act_true_of_false step)
  have holds := h.holds
  have releases := h.releases
  refine ⟨settled.writeClosers, h.misuse, ?_⟩
  rcases settled.outcome with ⟨at', -, read, streams, -⟩ | ⟨at', -, read, streams, -⟩
  · rw [at'] at holds releases
    exact .inr ⟨at', read, streams, holds, releases⟩
  · rw [at'] at holds releases
    exact .inl ⟨at', read, streams, holds, releases⟩

theorem Spared.owned {s : State} (h : Spared s) (stuck : ∀ a, act true s a = none) :
    Owned s := by
  have raised : s.caller = .raised := by
    have raising := stuck .closeRead
    have readClosed := stuck .closeWrite
    rcases h.caller with at' | at' | at'
    · simp [act, at'] at raising
    · simp [act, at'] at readClosed
    · exact at'
  have gone := h.raised raised
  have closers := h.writeClosers
  have readCloses := h.readCloses
  refine ⟨?_, h.misuse, .inl ⟨raised, ?_, h.streams, ?_, ?_⟩⟩
  · simpa [gone, State.closer, h.sent] using closers
  · simpa [raised] using readCloses
  · rw [h.holds, h.tempfile]
    rfl
  · rw [h.releases, h.tempfile]
    rfl

theorem Unharmed.owned {s : State} (h : Unharmed s) (stuck : ∀ a, act true s a = none) :
    Owned s :=
  h.elim (·.owned stuck) (·.owned stuck)

theorem Unharmed.closers {s : State} (h : Unharmed s) :
    s.misuse = false ∧ s.writeClosers <+: [s.closer] := by
  rcases h with inv | spared
  · exact ⟨inv.misuse, inv.closers⟩
  · refine ⟨spared.misuse, ?_⟩
    rw [spared.writeClosers, State.closer, if_pos spared.sent]
    split
    · exact List.prefix_rfl
    · exact List.nil_prefix

/-- Every run whose steps are all harmless keeps to one owner of the writing end
throughout.  A run that is over has closed it once, by its owner, and given up or
handed over the rest once, exactly when all of its steps were harmless. -/
theorem owned_iff_interrupts_harmless {s : State} {run : List (Act × State)}
    (start : (system true).init s) (isRun : (system true).IsRun s run) :
    (Lts.AllSteps Harmless s run →
        Lts.AllStates (fun s => s.misuse = false ∧ s.writeClosers <+: [s.closer]) s run) ∧
      ((∀ a, act true (Lts.last s run) a = none) →
        (Owned (Lts.last s run) ↔ Lts.AllSteps Harmless s run)) := by
  have first : Unharmed s := .inl (Inv.of_init start)
  have spoilt : Spoilt (Lts.last s run) ↔ Spoilt s ∨ ¬Lts.AllSteps Harmless s run :=
    isRun.spoilt_iff (I := fun s => Unharmed s ∨ Spoilt s) (.inl first)
      fun s a t inv step => unharmed_or_spoilt_step inv step
  rw [or_iff_right first.not_spoilt] at spoilt
  have kept (harmless : Lts.AllSteps Harmless s run) : Lts.AllStates Unharmed s run := by
    apply isRun.invariant harmless first
    intro s a t unharmed harmless step
    rcases unharmed.step step with ⟨next, -⟩ | ⟨-, harmful⟩
    · exact next
    · exact absurd harmless harmful
  constructor
  · intro harmless
    exact (kept harmless).mono fun s unharmed => unharmed.closers
  · intro stuck
    constructor
    · intro owned
      by_contra harmful
      exact (spoilt.mpr harmful).not_owned stuck owned
    · intro harmless
      exact (kept harmless).last.owned stuck

/-- An interrupt on the return of `open_stream`, for a source with no temp file: the worker
is through when the caller comes to close the writing end, and the number is unused. -/
def closedBefore : State where
  tempfile := false
  caller := .raised
  worker := .gone
  sent := some .ok
  archiveOpened := true
  readOpen := false
  readCloses := 1
  writeOpen := false
  writeClosers := [.worker]

theorem owned_iff_interrupts_harmless_closedBefore : Owned closedBefore := by
  have start : (system true).init { tempfile := false } := rfl
  have run : (system true).IsRun { tempfile := false } [(.hold, _), (.spawn, _),
      (.coreOpen .ok, _), (.send, _), (.receive, _), (.interrupt, _), (.closeRead, _),
      (.adopt, _), (.readEntry .ok, _), (.closeWriteFails, closedBefore)] :=
    ⟨rfl, rfl, rfl, rfl, rfl, rfl, rfl, rfl, rfl, rfl, True.intro⟩
  refine ((owned_iff_interrupts_harmless start run).2 ?_).mpr ?_
  · intro a
    cases a <;> rfl
  · decide

/-- An interrupt on the return of `open_stream`: the worker closes the writing end
when it is done, and the caller has closed it before. -/
def closedTwice : State where
  tempfile := true
  caller := .raised
  worker := .gone
  sent := some .ok
  archiveOpened := true
  readOpen := false
  readCloses := 1
  writeOpen := false
  writeClosers := [.caller, .worker]
  misuse := true
  holds := 1
  releases := 1

theorem interrupted_return_closes_twice :
    (system true).Reachable closedTwice ∧ (∀ a, act true closedTwice a = none) ∧
      ¬Owned closedTwice := by
  refine ⟨⟨{ tempfile := true },
    [(.hold, _), (.spawn, _), (.coreOpen .ok, _), (.send, _), (.receive, _), (.interrupt, _),
      (.closeRead, _), (.closeWrite, _), (.release, _), (.adopt, _), (.readEntry .ok, _)],
    rfl, ⟨rfl, rfl, rfl, rfl, rfl, rfl, rfl, rfl, rfl, rfl, rfl, True.intro⟩, rfl⟩, ?_, ?_⟩
  · intro a
    cases a <;> rfl
  · intro owned
    cases owned.write

end Handshake

end NewtuaPy
