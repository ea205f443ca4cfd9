import NewtuaPy.Archive

/-!
# An extraction and its progress callback

Each engine event is encoded, decoded and handed to the user's callback, whose
answer is one of three things on the way back: go on, stop, or an exception.
`build_progress_fn` knows only the first two, so a callback that raises looks to
the engine like one that asked to stop, and to the caller of `extract` too.
-/

namespace NewtuaPy

/-! ## The engine's side -/

/-- An engine that reports `events` in order and stops at the first `Abort`: whether
it has stopped.  `before` is what it has reported already. -/
def stopped (progress : List CoreEvent → CoreEvent → Flow) (before : List CoreEvent) :
    List CoreEvent → Bool
  | [] => false
  | event :: events =>
      if progress before event = .abort then true
      else stopped progress (before ++ [event]) events

/-- An extraction under these options reports `events`, and says whether it was
stopped, whatever callback it is given. -/
def Reader.Reports (reader : Reader) (file : Option Bytes) (options : ExtractOptions)
    (events : List CoreEvent) : Prop :=
  ∀ progress, ∃ extracted failed,
    reader.extractAll file { options with progress := some progress } =
      .ok { extracted, failed, aborted := stopped progress [] events }

/-! ## The callback's side -/

/-- The answers after which the engine reports nothing more. -/
def Reply.Stops : Reply → Prop
  | .returns value => value = .bool false
  | .raises _ => True

instance : DecidablePred Reply.Stops
  | .returns value => inferInstanceAs (Decidable (value = .bool false))
  | .raises _ => isTrue True.intro

/-- What the user's callback is handed, with its answers, while the engine reports
events until it is told to stop. -/
def calls (progress : ProgressCallback) (before : List CoreEvent) :
    List CoreEvent → List (ProgressEvent × Reply)
  | [] => []
  | event :: events =>
      let call := match eventFromRaw event.raw with
        | .ok e => [(e, wrapProgress progress (before.map CoreEvent.raw) event.raw)]
        | .error _ => []
      if buildProgressFn (wrapProgress progress) before event = .abort then call
      else call ++ calls progress (before ++ [event]) events

/-- The callback raises on no event it is handed: on none up to the first at which
it returns `False`. -/
def Calm (progress : ProgressCallback) (before : List CoreEvent) : List CoreEvent → Prop
  | [] => True
  | event :: events =>
      (∀ exc, progress ((before ++ [event]).map CoreEvent.decoded) ≠ .raises exc) ∧
        (progress ((before ++ [event]).map CoreEvent.decoded) ≠ .returns (.bool false) →
          Calm progress (before ++ [event]) events)

variable {progress : ProgressCallback} {before : List CoreEvent} {event : CoreEvent}
  {events : List CoreEvent}

/-- The wrapper hands over the event, after those before it. -/
theorem wrapProgress_decoded :
    wrapProgress progress (before.map CoreEvent.raw) event.raw =
      progress ((before ++ [event]).map CoreEvent.decoded) := by
  have history : (before.map CoreEvent.raw).filterMap (fun b => (eventFromRaw b).toOption) =
      before.map CoreEvent.decoded := by
    rw [List.filterMap_map, ← List.filterMap_eq_map]
    apply List.filterMap_congr
    intro b _
    dsimp only [Function.comp]
    rw [eventFromRaw_decoded]
    rfl
  unfold wrapProgress
  rw [eventFromRaw_decoded]
  dsimp only
  rw [history, List.map_append]
  rfl

/-- Going on and stopping are told apart, stopping and raising are not. -/
theorem buildProgressFn_abort :
    buildProgressFn (wrapProgress progress) before event = .abort ↔
      (progress ((before ++ [event]).map CoreEvent.decoded)).Stops := by
  unfold buildProgressFn
  rw [wrapProgress_decoded]
  rcases progress ((before ++ [event]).map CoreEvent.decoded) with value | exc
  · unfold Reply.Stops
    dsimp only
    rcases value with _ | (_ | _) | i | _ <;> simp [PyObj.extractBool]
  · exact iff_of_true rfl True.intro

/-- The first call, and what follows it. -/
theorem calls_cons :
    calls progress before (event :: events) =
      (event.decoded, progress ((before ++ [event]).map CoreEvent.decoded)) ::
        if (progress ((before ++ [event]).map CoreEvent.decoded)).Stops then []
        else calls progress (before ++ [event]) events := by
  rw [calls, eventFromRaw_decoded, wrapProgress_decoded]
  dsimp only
  by_cases stops : (progress ((before ++ [event]).map CoreEvent.decoded)).Stops
  · rw [if_pos (buildProgressFn_abort.mpr stops), if_pos stops]
  · rw [if_neg (mt buildProgressFn_abort.mp stops), if_neg stops]
    rfl

/-! ## What is handed over -/

/-- The callback is handed the engine's events, in their order, one object for each,
and all of them up to its first stopping answer; each answer is the one it gives to
what it has been handed by then. -/
structure Decodes (progress : ProgressCallback) (events : List CoreEvent) : Prop where
  handed : (calls progress [] events).map Prod.fst <+: events.map CoreEvent.decoded
  answers : (calls progress [] events).map Prod.snd =
    ((calls progress [] events).map Prod.fst).inits.tail.map progress
  goesOn : ∀ answer ∈ ((calls progress [] events).map Prod.snd).dropLast, ¬ answer.Stops
  ends : (calls progress [] events).length < events.length →
    ∃ answer, ((calls progress [] events).map Prod.snd).getLast? = some answer ∧ answer.Stops

theorem calls_handed (progress : ProgressCallback) (before events : List CoreEvent) :
    (calls progress before events).map Prod.fst <+: events.map CoreEvent.decoded := by
  induction events generalizing before with
  | nil => exact List.prefix_refl _
  | cons event events ih =>
      rw [calls_cons, List.map_cons, List.map_cons]
      apply (List.cons_prefix_cons).mpr
      refine ⟨rfl, ?_⟩
      split_ifs
      · exact List.nil_prefix
      · exact ih (before ++ [event])

theorem calls_answers (progress : ProgressCallback) (before events : List CoreEvent) :
    (calls progress before events).map Prod.snd =
      ((calls progress before events).map Prod.fst).inits.tail.map
        fun handed => progress (before.map CoreEvent.decoded ++ handed) := by
  induction events generalizing before with
  | nil => rfl
  | cons event events ih =>
      have first : before.map CoreEvent.decoded ++ [event.decoded] =
          (before ++ [event]).map CoreEvent.decoded := by
        rw [List.map_append]
        rfl
      rw [calls_cons]
      split_ifs
      · simp only [List.map_cons, List.map_nil, List.inits, List.tail_cons, first]
      · have later := ih (before ++ [event])
        rw [List.map_cons, List.map_cons, later, ← first]
        rcases (calls progress (before ++ [event]) events).map Prod.fst with _ | ⟨e, es⟩ <;>
          simp [List.inits, Function.comp_def]

theorem calls_goesOn (progress : ProgressCallback) (before events : List CoreEvent) :
    ∀ answer ∈ ((calls progress before events).map Prod.snd).dropLast, ¬ answer.Stops := by
  induction events generalizing before with
  | nil => exact List.forall_mem_nil _
  | cons event events ih =>
      rw [calls_cons]
      split_ifs with stops
      · exact List.forall_mem_nil _
      · have later := ih (before ++ [event])
        rcases next : calls progress (before ++ [event]) events with _ | ⟨call, rest⟩
        · exact List.forall_mem_nil _
        · rw [next] at later
          intro answer member
          rw [List.map_cons, List.map_cons, List.dropLast_cons_cons] at member
          rcases List.mem_cons.mp member with here | there
          · rw [here]
            exact stops
          · exact later answer there

theorem calls_ends (progress : ProgressCallback) (before events : List CoreEvent)
    (short : (calls progress before events).length < events.length) :
    ∃ answer, ((calls progress before events).map Prod.snd).getLast? = some answer ∧
      answer.Stops := by
  induction events generalizing before with
  | nil => exact absurd short (Nat.not_lt_zero _)
  | cons event events ih =>
      rw [calls_cons] at short ⊢
      split_ifs at short ⊢ with stops
      · exact ⟨_, rfl, stops⟩
      · rw [List.length_cons, List.length_cons] at short
        obtain ⟨answer, last, ends⟩ := ih (before ++ [event]) (by omega)
        refine ⟨answer, ?_, ends⟩
        rw [List.map_cons, List.getLast?_cons, last]
        rfl

theorem decodes (progress : ProgressCallback) (events : List CoreEvent) :
    Decodes progress events where
  handed := calls_handed progress [] events
  answers := calls_answers progress [] events
  goesOn := calls_goesOn progress [] events
  ends := calls_ends progress [] events

/-! ## What is reported -/

/-- The engine has stopped when some answer told it to. -/
theorem stopped_iff (progress : ProgressCallback) (before events : List CoreEvent) :
    stopped (buildProgressFn (wrapProgress progress)) before events = true ↔
      ∃ call ∈ calls progress before events, call.2.Stops := by
  induction events generalizing before with
  | nil =>
      refine iff_of_false nofun fun stops => ?_
      obtain ⟨_, impossible, _⟩ := stops
      cases impossible
  | cons event events ih =>
      unfold stopped
      rw [calls_cons]
      by_cases stops : (progress ((before ++ [event]).map CoreEvent.decoded)).Stops
      · rw [if_pos (buildProgressFn_abort.mpr stops)]
        exact iff_of_true rfl ⟨_, List.mem_cons_self, stops⟩
      · rw [if_neg (mt buildProgressFn_abort.mp stops), if_neg stops, ih]
        constructor
        · intro found
          obtain ⟨call, member, stop⟩ := found
          exact ⟨call, List.mem_cons_of_mem _ member, stop⟩
        · intro found
          obtain ⟨call, member, stop⟩ := found
          rcases List.mem_cons.mp member with here | there
          · rw [here] at stop
            exact (stops stop).elim
          · exact ⟨call, there, stop⟩

/-- A calm callback raises at none of its calls. -/
theorem calm_iff (progress : ProgressCallback) (before events : List CoreEvent) :
    Calm progress before events ↔
      ∀ call ∈ calls progress before events, ∀ exc, call.2 ≠ .raises exc := by
  induction events generalizing before with
  | nil => exact iff_of_true True.intro (List.forall_mem_nil _)
  | cons event events ih =>
      unfold Calm
      rw [calls_cons, ih, List.forall_mem_cons]
      apply and_congr_right
      intro quiet
      rcases answer : progress ((before ++ [event]).map CoreEvent.decoded) with value | exc
      · by_cases stops : value = .bool false
        · have stop : (Reply.returns value).Stops := stops
          rw [if_pos stop]
          apply iff_of_true
          · exact fun goes => (goes (congrArg Reply.returns stops)).elim
          · exact List.forall_mem_nil _
        · have goes : ¬ (Reply.returns value).Stops := stops
          rw [if_neg goes]
          refine ⟨fun later => later fun same => ?_, fun later _ => later⟩
          exact stops (Reply.returns.inj same)
      · exact (quiet exc answer).elim

/-- The caller of `extract` hears of an abort exactly when the callback asked for one,
and of every exception the callback raises. -/
structure Honest (outcome : Except PyExc Report) (progress : ProgressCallback)
    (events : List CoreEvent) : Prop where
  aborted : (∃ report, outcome = .ok report ∧ report.aborted = true) ↔
    ∃ call ∈ calls progress [] events, call.2 = .returns (.bool false)
  raised : ∀ call ∈ calls progress [] events, ∀ exc, call.2 = .raises exc → outcome = .error exc

/-- A report that says whether the engine was stopped is honest exactly about a calm
callback. -/
theorem honest_iff {report : Report}
    (told : report.aborted = stopped (buildProgressFn (wrapProgress progress)) [] events) :
    Honest (.ok report) progress events ↔ Calm progress [] events := by
  rw [calm_iff]
  constructor
  · intro honest call member exc raises
    cases honest.raised call member exc raises
  · intro calm
    have same : (∃ call ∈ calls progress [] events, call.2.Stops) ↔
        ∃ call ∈ calls progress [] events, call.2 = .returns (.bool false) := by
      refine exists_congr fun call => and_congr_right fun member => ?_
      rcases answer : call.2 with value | exc
      · exact ⟨fun stops => congrArg Reply.returns stops, fun same => Reply.returns.inj same⟩
      · exact (calm call member exc answer).elim
    refine ⟨?_, fun call member exc raises => (calm call member exc raises).elim⟩
    rw [← same, ← stopped_iff, ← told]
    constructor
    · intro reported
      obtain ⟨report', same, aborted⟩ := reported
      rw [Except.ok.inj same]
      exact aborted
    · intro aborted
      exact ⟨report, rfl, aborted⟩

variable {eng : Engine} {request : Archive.ExtractRequest} {s s₁ s₂ : Session}
  {reader : RustArchive} {selection : Option (List Int)} {wanted : Option (List Nat)}

/-- `extract` ends with the report of an engine that reports `events`. -/
theorem extract_reported (given : request.progress = some progress)
    (opened : Archive._open eng s = (.ok reader, s₁))
    (resolved : Archive.selected eng request.selection s₁ = (.ok selection, s₂))
    (converted : selectionArg selection = .ok wanted)
    (reports : reader.reader.Reports (s₂.world.files reader.path)
      ((request.toCall selection s₂.self.source.wrapperNameSource).options eng wanted) events) :
    ∃ report : Report, (Archive.extract eng request s).1 = .ok report ∧
      report.aborted = stopped (buildProgressFn (wrapProgress progress)) [] events := by
  obtain ⟨extracted, failed, told⟩ := reports (buildProgressFn (wrapProgress progress))
  let c := request.toCall selection s₂.self.source.wrapperNameSource
  have carried : c.options eng wanted =
      { c.options eng wanted with progress := some (buildProgressFn (wrapProgress progress)) } := by
    have progressed : (c.options eng wanted).progress =
        some (buildProgressFn (wrapProgress progress)) := by
      change (request.progress.map wrapProgress).map buildProgressFn = _
      rw [given]
      rfl
    rw [← progressed]
  let report : CoreReport :=
    { extracted, failed, aborted := stopped (buildProgressFn (wrapProgress progress)) [] events }
  have reported : reader.reader.report (s₂.world.files reader.path) (c.options eng wanted) =
      .ok report.report := by
    unfold Reader.report
    rw [carried, told]
    rfl
  have asked := reader.extract_asks eng c s₂.world
  rw [show selectionArg c.selection = .ok wanted from converted] at asked
  have run : Archive.extract eng request s = Archive.typed (onWorld (reader.extract eng c)) s₂ :=
    (Exn.bind_of_ok opened _).trans (Exn.bind_of_ok resolved _)
  refine ⟨report.report, ?_, rfl⟩
  rw [run]
  have ended := onWorld_run (asked.trans (congrArg (·, _) reported))
  exact congrArg Prod.fst (Exn.handle_of_ok ended _)

/-- The callback of an extraction is handed the engine's events as they are, up to
its first stopping answer; what `extract` then tells its caller is right exactly
when the callback raises on none of them. -/
theorem progress_honest_iff (given : request.progress = some progress)
    (opened : Archive._open eng s = (.ok reader, s₁))
    (resolved : Archive.selected eng request.selection s₁ = (.ok selection, s₂))
    (converted : selectionArg selection = .ok wanted)
    (reports : reader.reader.Reports (s₂.world.files reader.path)
      ((request.toCall selection s₂.self.source.wrapperNameSource).options eng wanted) events) :
    Decodes progress events ∧
      (Honest (Archive.extract eng request s).1 progress events ↔ Calm progress [] events) := by
  obtain ⟨report, outcome, told⟩ := extract_reported given opened resolved converted reports
  refine ⟨decodes progress events, ?_⟩
  rw [outcome]
  exact honest_iff told

/-! ## An archive of one file, reported in three events -/

def threeEvents : List CoreEvent := [.entryStart 0 "a" 1, .bytes 0 1, .entryDone 0]

/-- An engine for which every file is an archive of nothing, extracted in three
events. -/
def reporting : Engine where
  openContent _ _ _ :=
    .ok
      { entries := .ok ⟨[], (by decide : 0 < usizeBound)⟩
        format := .zip
        readEntry := fun _ _ => { chunks := [], status := .ok () }
        extractAll := fun _ options => .ok
          { extracted := 1
            failed := []
            aborted := match options.progress with
              | some progress => stopped progress [] threeEvents
              | none => false } }
  missing := "no such file"
  invalidIndex _ := "invalid index"
  detectEncoding _ _ := "utf-8"
  wrapperName _ _ := none

def watched (progress : ProgressCallback) : Archive.ExtractRequest where
  dest := ⟨"out", "out"⟩
  selection := none
  wrapper := true
  strict := false
  preserve := true
  progress := some progress

def onDisk : Session := Archive.init (fun _ => some [80]) (.path ⟨"a.zip", "a.zip"⟩) none none

/-- The callback that asks to stop at the second event. -/
def second : ProgressCallback := fun handed => .returns (.bool (handed.length != 2))

theorem progress_honest_iff_second :
    Honest (Archive.extract reporting (watched second) onDisk).1 second threeEvents := by
  have given : (watched second).progress = some second := rfl
  refine (progress_honest_iff given (s := onDisk) rfl rfl rfl ?_).2.mpr ?_
  · intro progress
    exact ⟨1, [], rfl⟩
  · refine ⟨nofun, fun _ => ⟨nofun, fun goes => (goes rfl).elim⟩⟩

/-- The callback fails at the first event, and `extract` returns a report of an abort. -/
def failing : ProgressCallback := fun _ => .raises { cls := .valueError, text := "boom" }

theorem failing_callback_reported :
    ¬ Honest (Archive.extract reporting (watched failing) onDisk).1 failing threeEvents := by
  intro honest
  have reached := honest.raised (.entryStarted 0 (PurePosixPath.ofString "a") 1,
    .raises { cls := .valueError, text := "boom" }) List.mem_cons_self _ rfl
  cases reached

end NewtuaPy
