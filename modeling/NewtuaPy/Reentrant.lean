import NewtuaPy.History
import NewtuaPy.ProgressRuns

/-!
# An archive used from its own progress callback

The compiled module takes an archive `&mut` while it extracts, so the reader is lent out as
long as the extraction runs, and PyO3 refuses any other method of it.  In the middle of the
extraction the user's callback may do anything with the archive short of closing it: look
into it, read, set another password, which makes it open another reader, and extract again.
-/

namespace NewtuaPy

namespace Archive

/-! ## A reader that is lent out -/

variable {V : View} {s : Session} {r : RustArchive}

/-- What a call is told that needs the reader itself. -/
def Refused (outcome : Except PyExc Value) : Prop :=
  outcome = .error alreadyMutablyBorrowed ∨ outcome = .error alreadyMutablyBorrowed.raised ∨
    outcome = .error alreadyBorrowed.raised

/-- The calls that look nowhere but into the listing. -/
def Call.LooksUp : Call → Prop
  | .len | .iter | .getitem _ | .contains _ | .needsPassword => True
  | _ => False

/-- What a call while the reader is out comes to. -/
structure While (V : View) (r : RustArchive) (c : Call) (s : Session)
    (run : Except PyExc Value × Session) : Prop where
  ready : Ready V r run.2
  answers : run.1 = (call V.eng c s).1 ∨
    Refused run.1 ∧ ¬(s.self.entries.isSome = true ∧ c.LooksUp)

variable {es : List Entry} {c : Call}

theorem Ready.unlisted_run (h : Ready V r s) (unlisted : s.self.entries = none) :
    _listing ⟨V.eng, true⟩ s = (.error alreadyMutablyBorrowed, s) := by
  unfold _listing
  rw [Exn.get_bind_apply, unlisted]
  exact Exn.bind_of_ok h._open_run _

theorem listed_still (listed : s.self.entries = some es) (eng : Engine) :
    Exn.Still s (_listing ⟨eng, true⟩) (_listing eng) := by
  have run (mod : CompiledModule) : _listing mod s = (.ok es, s) := by
    unfold _listing
    rw [Exn.get_bind_apply, listed]
    rfl
  exact ⟨(run _).trans (run _).symm, congrArg Prod.snd (run _)⟩

theorem nameIndex_still : Exn.Still s nameIndex nameIndex := by
  refine Exn.Still.get.bind fun s' => ?_
  split
  · exact .pure _
  · exact .raise _

/-- Looking into a listing that is there needs no reader, and changes nothing. -/
theorem lookup_still (eng : Engine) (listed : s.self.entries = some es) (looks : c.LooksUp) :
    Exn.Still s (call ⟨eng, true⟩ c) (call eng c) := by
  have lists := listed_still listed eng
  cases c with
  | len => exact lists.bind fun _ => .pure _
  | iter => exact lists.bind fun _ => .pure _
  | getitem key =>
      refine lists.bind fun entries => ?_
      cases key with
      | slice sl => exact (Exn.Still.lift _).bind fun _ => .pure _
      | int i => exact (Exn.Still.lift _).bind fun _ => .pure _
      | name n => exact nameIndex_still.bind fun _ => (Exn.Still.lift _).bind fun _ => .pure _
      | path p => exact nameIndex_still.bind fun _ => (Exn.Still.lift _).bind fun _ => .pure _
  | contains key =>
      refine Exn.Still.bind ?_ fun _ => .pure _
      cases key with
      | entry e => exact lists.bind fun _ => .pure _
      | name n => exact lists.bind fun _ => nameIndex_still.bind fun _ => .pure _
      | path p => exact lists.bind fun _ => nameIndex_still.bind fun _ => .pure _
      | other => exact .pure _
  | needsPassword =>
      refine Exn.Still.bind (Exn.Still.handle (lists.bind fun _ => .pure _) fun exc => ?_)
        fun _ => .pure _
      split
      · exact .pure _
      · exact .raise _
  | _ => exact looks.elim

/-- The call does what it does with the reader at home. -/
theorem Ready.still (h : Ready V r s)
    (still : Exn.Still s (call ⟨V.eng, true⟩ c) (call V.eng c)) :
    While V r c s (call ⟨V.eng, true⟩ c s) where
  ready := by rwa [still.2]
  answers := Or.inl (congrArg Prod.fst still.1)

/-- The call ends where it asks for the reader. -/
theorem Ready.refused {refusal : PyExc} {s' : Session} (h : Ready V r s')
    (refused : Refused (.error refusal)) (unanswered : ¬(s.self.entries.isSome = true ∧ c.LooksUp))
    (run : call ⟨V.eng, true⟩ c s = (.error refusal, s')) :
    While V r c s (call ⟨V.eng, true⟩ c s) where
  ready := by rwa [run]
  answers := by
    rw [run]
    exact Or.inr ⟨refused, unanswered⟩

theorem Ready.lookup_while (h : Ready V r s) (looks : c.LooksUp) :
    While V r c s (call ⟨V.eng, true⟩ c s) := by
  rcases listed : s.self.entries with _ | es
  · have missing := h.unlisted_run listed
    have unanswered : ¬(s.self.entries.isSome = true ∧ c.LooksUp) := by
      rw [listed]
      exact nofun
    have refused : Refused (.error alreadyMutablyBorrowed) := Or.inl rfl
    cases c with
    | len => exact h.refused refused unanswered (Exn.bind_of_error missing _)
    | iter => exact h.refused refused unanswered (Exn.bind_of_error missing _)
    | getitem key => exact h.refused refused unanswered (Exn.bind_of_error missing _)
    | contains key =>
        cases key with
        | other => exact h.still ⟨rfl, rfl⟩
        | _ =>
            exact h.refused refused unanswered
              (Exn.bind_of_error (Exn.bind_of_error missing _) _)
    | needsPassword =>
        exact h.refused refused unanswered
          (Exn.bind_of_error (Exn.handle_of_error (Exn.bind_of_error missing _) _) _)
    | _ => exact looks.elim
  · exact h.still (lookup_still V.eng listed looks)

/-- A call that looks something up and then asks the reader. -/
theorem Ready.asks_while {α : Type} (h : Ready V r s) (asks : ¬c.LooksUp)
    (look : Bool → Py Session α) (ask : Bool → α → Py Session Value)
    (shape : ∀ lent, call ⟨V.eng, lent⟩ c s = (look lent >>= ask lent) s)
    (looked : look true s = (.error alreadyMutablyBorrowed, s) ∨
      Exn.Still s (look true) (look false))
    (asked : ∀ a, ∃ refusal s', ask true a s = (.error refusal, s') ∧ Refused (.error refusal) ∧
      Ready V r s') :
    While V r c s (call ⟨V.eng, true⟩ c s) := by
  have unanswered : ¬(s.self.entries.isSome = true ∧ c.LooksUp) := fun both => asks both.2
  rcases looked with missing | still
  · refine h.refused (Or.inl rfl) unanswered ?_
    rw [shape]
    exact Exn.bind_of_error missing _
  · rcases run : look true s with ⟨exc | a, t⟩
    · have stays : t = s := by
        have stays := still.2
        rwa [run] at stays
      subst stays
      have home : look false t = (.error exc, t) := still.1.symm.trans run
      refine h.still ⟨?_, ?_⟩
      · rw [shape, shape false, Exn.bind_of_error run, Exn.bind_of_error home]
      · rw [shape, Exn.bind_of_error run]
    · have stays : t = s := by
        have stays := still.2
        rwa [run] at stays
      subst stays
      obtain ⟨refusal, s', refuses, refused, ready⟩ := asked a
      refine ready.refused refused unanswered ?_
      rw [shape, Exn.bind_of_ok run, refuses]

/-- Resolving a reference takes the listing. -/
theorem Ready.indexOf_looks (h : Ready V r s) (ref : Ref) :
    _indexOf ⟨V.eng, true⟩ ref s = (.error alreadyMutablyBorrowed, s) ∨
      Exn.Still s (_indexOf ⟨V.eng, true⟩ ref) (_indexOf V.eng ref) := by
  rcases listed : s.self.entries with _ | es
  · exact Or.inl (Exn.bind_of_error (h.unlisted_run listed) _)
  · exact Or.inr ((listed_still listed V.eng).bind fun _ => .lift _)

/-- A selection takes the listing unless it is empty. -/
theorem Ready.selected_looks (h : Ready V r s) (selection : Option (List Ref)) :
    selected ⟨V.eng, true⟩ selection s = (.error alreadyMutablyBorrowed, s) ∨
      Exn.Still s (selected ⟨V.eng, true⟩ selection) (selected V.eng selection) := by
  cases selection with
  | none => exact Or.inr (.pure none)
  | some refs =>
      rcases listed : s.self.entries with _ | es
      · cases refs with
        | nil => exact Or.inr ((Exn.Still.pure []).bind fun _ => .pure _)
        | cons ref refs =>
            have missing : _indexOf ⟨V.eng, true⟩ ref s = (.error alreadyMutablyBorrowed, s) :=
              Exn.bind_of_error (h.unlisted_run listed) _
            exact Or.inl (Exn.bind_of_error (Exn.bind_of_error missing _) _)
      · have all (refs : List Ref) :
            Exn.Still s (indices ⟨V.eng, true⟩ refs) (indices V.eng refs) := by
          induction refs with
          | nil => exact .pure _
          | cons ref refs ih =>
              have first := (listed_still listed V.eng).bind
                fun entries => Exn.Still.lift (resolveIndex entries ref)
              exact first.bind fun _ => ih.bind fun _ => .pure _
        exact Or.inr ((all refs).bind fun _ => .pure _)

/-- Reading an entry asks the reader last. -/
theorem Ready.fetch_while (h : Ready V r s) (asks : ¬c.LooksUp) {ref : Ref}
    {fetch : RustArchive → Int → Py World Bytes} {pack : Bytes → Value}
    (shape : ∀ lent, call ⟨V.eng, lent⟩ c = (do
      let b ← (do
        let reader ← _open V.eng
        let index ← _indexOf ⟨V.eng, lent⟩ ref
        typed (CompiledModule.borrowing ⟨V.eng, lent⟩ alreadyBorrowed
          (onWorld (fetch reader index))))
      pure (pack b))) :
    While V r c s (call ⟨V.eng, true⟩ c s) := by
  refine h.asks_while asks (fun lent => _indexOf ⟨V.eng, lent⟩ ref)
    (fun lent index => do
      let b ← typed (CompiledModule.borrowing ⟨V.eng, lent⟩ alreadyBorrowed
        (onWorld (fetch r index)))
      pure (pack b)) ?_ (h.indexOf_looks ref) ?_
  · intro lent
    rw [shape, Exn.bind_assoc, Exn.bind_of_ok h._open_run, Exn.bind_assoc]
  · intro index
    exact ⟨_, s, rfl, Or.inr (Or.inr rfl), h⟩

/-- A pipe that is opened in vain leaves the archive as ready as it was. -/
theorem Ready.pipe_refused (h : Ready V r s) (refusal : PyExc) (size : Option Int) :
    ∃ s', onWorld (openPipe s.self.tempfile (Exn.raise refusal) size) s =
      (.error refusal.raised, s') ∧ Ready V r s' := by
  obtain ⟨w₁, holding, held, spare, -⟩ := holdClaim_run h.1.claimed
  obtain ⟨w₂, releasing, same, -⟩ := releaseClaim_run spare
  exact ⟨_, onWorld_run (openPipe_error holding (Exn.raise_apply refusal w₁) releasing size),
    h.ofSame (held.trans same)⟩

theorem Ready.stream_while (h : Ready V r s) (ref : Ref) :
    While V r (.openStream ref) s (call ⟨V.eng, true⟩ (.openStream ref) s) := by
  refine h.asks_while id
    (fun lent => do
      let index ← _indexOf ⟨V.eng, lent⟩ ref
      let entries ← _listing ⟨V.eng, lent⟩
      let entry ← Exn.lift (tupleItem entries index)
      pure (index, entry))
    (fun lent p => do
      let s ← Exn.get
      let opened ← onWorld (openPipe s.self.tempfile
        (CompiledModule.borrowing ⟨V.eng, lent⟩ alreadyMutablyBorrowed (r.openStream V.eng p.1))
        (some (p.2.size : Int)))
      pure (.stream opened.2.data opened.2.expectedSize)) ?_ ?_ ?_
  · intro lent
    unfold call
    dsimp only
    unfold openStream
    rw [Exn.bind_assoc, Exn.bind_of_ok h._open_run]
    simp only [Exn.bind_assoc]
    rfl
  · rcases listed : s.self.entries with _ | es
    · have missing : _indexOf ⟨V.eng, true⟩ ref s = (.error alreadyMutablyBorrowed, s) :=
        Exn.bind_of_error (h.unlisted_run listed) _
      exact Or.inl (Exn.bind_of_error missing _)
    · have lists := listed_still listed V.eng
      refine Or.inr ((lists.bind fun _ => .lift _).bind fun index => ?_)
      exact lists.bind fun entries => (Exn.Still.lift _).bind fun _ => .pure _
  · rintro ⟨index, entry⟩
    obtain ⟨s', refused, ready⟩ :=
      h.pipe_refused alreadyMutablyBorrowed (some (entry.size : Int))
    refine ⟨_, s', ?_, Or.inr (Or.inl rfl), ready⟩
    rw [Exn.get_bind_apply]
    exact Exn.bind_of_error refused _

/-- While the reader is out, a call answers as if it were at home, or is refused. -/
theorem Ready.call_while (h : Ready V r s) (c : Call) :
    While V r c s (call ⟨V.eng, true⟩ c s) := by
  cases c with
  | read ref => exact h.fetch_while id fun lent => rfl
  | openBuffered ref => exact h.fetch_while id fun lent => rfl
  | openStream ref => exact h.stream_while ref
  | extract request =>
      refine h.asks_while id (fun lent => selected ⟨V.eng, lent⟩ request.selection)
        (fun lent selection => do
          let s ← Exn.get
          let report ← typed (CompiledModule.borrowing ⟨V.eng, lent⟩ alreadyBorrowed (onWorld
            (r.extract V.eng (request.toCall selection s.self.source.wrapperNameSource))))
          pure (.report report)) ?_ (h.selected_looks request.selection) ?_
      · intro lent
        unfold call
        dsimp only
        unfold extract
        rw [Exn.bind_assoc, Exn.bind_of_ok h._open_run, Exn.bind_assoc]
        rfl
      · intro selection
        exact ⟨_, s, rfl, Or.inr (Or.inr rfl), h⟩
  | format =>
      refine h.refused (Or.inl rfl) (fun both => both.2) ?_
      exact Exn.bind_of_error (Exn.bind_of_ok h._open_run _) _
  | detectedEncoding =>
      refine h.refused (Or.inl rfl) (fun both => both.2) ?_
      exact Exn.bind_of_error (Exn.bind_of_ok h._open_run _) _
  | _ => exact h.lookup_while True.intro

/-! ## Callbacks that use the archive -/

/-- A call, or an extraction with a callback that uses the archive: for its outcome, all that
counts of the callback is what it has replied. -/
inductive Question
  | call (c : Call)
  | extract (request : ExtractRequest) (replies : List Reply)

/-- A question that has been put, under the password in use, and its outcome. -/
structure Asked where
  password : Option String
  lent : Bool
  listed : Bool
  question : Question
  outcome : Except PyExc Value

/-- An archive that callbacks may use, whether its reader is lent out, what it has been asked,
what the callback of the innermost extraction has replied, and what the user remembers. -/
structure Inside (μ : Type) where
  session : Session
  memory : μ
  lent : Bool := false
  asked : List Asked := []
  replies : List Reply := []

/-- What a user does with the archive, and what a progress callback does before it answers:
each sees what it gets, and an extraction that it starts has a callback of its own. -/
inductive Program (μ : Type)
  | reply (r : Reply)
  | remember (memory : μ) (next : Program μ)
  | call (c : Call) (next : Except PyExc Value → Program μ)
  | setPassword (password : Option String) (next : Program μ)
  | extract (request : ExtractRequest) (callback : μ → ProgressEvent → Program μ)
      (next : μ → Except PyExc Report → Program μ)

/-- An extraction as the engine runs it: it reports events, and hears after each whether to
go on. -/
inductive Extraction
  | ends (outcome : Except Fault CoreReport)
  | reports (event : CoreEvent) (next : Flow → Extraction)

abbrev Extracting := Reader → Option Bytes → ExtractOptions → Extraction

variable {μ : Type}

def onSession {α : Type} (x : Py Session α) : Py (Inside μ) α :=
  Exn.zoom Inside.session (fun i session => { i with session }) x

/-- A question that was put `before` has had its outcome. -/
def Inside.answered (before : Inside μ) (question : Question) (outcome : Except PyExc Value)
    (i : Inside μ) : Inside μ :=
  let asked : Asked :=
    { password := before.session.self.password
      lent := before.lent
      listed := before.session.self.entries.isSome
      question
      outcome }
  { i with asked := i.asked ++ [asked], replies := before.replies }

def Inside.ask (eng : Engine) (c : Call) (i : Inside μ) : Except PyExc Value × Inside μ :=
  let run := call ⟨eng, i.lent⟩ c i.session
  (run.1, i.answered (.call c) run.1 { i with session := run.2 })

/-- The old reader stays with the extraction, the next one is free. -/
def Inside.setPassword (password : Option String) (i : Inside μ) : Inside μ :=
  { i with session := (Archive.setPassword password i.session).2, lent := false }

/-- `_wrap_progress` and `build_progress_fn` around one call of the callback. -/
def notified (callback : ProgressEvent → Inside μ → Reply × Inside μ) (event : CoreEvent)
    (i : Inside μ) : Flow × Inside μ :=
  let answer := match eventFromRaw event.raw with
    | .ok decoded => callback decoded i
    | .error exc => (.raises exc, i)
  (buildProgressFn (fun _ _ => answer.1) [] event,
    { answer.2 with replies := answer.2.replies ++ [answer.1] })

/-- The extraction, with its events handed to the callback. -/
def Extraction.run (callback : ProgressEvent → Inside μ → Reply × Inside μ) :
    Extraction → Inside μ → Except Fault CoreReport × Inside μ
  | .ends outcome, i => (outcome, i)
  | .reports event next, i =>
      let heard := notified callback event i
      (next heard.1).run callback heard.2

/-- `Archive::extract` of the compiled module, which has the reader as long as it runs. -/
def extractLent (eng : Engine) (engine : Extracting) (reader : RustArchive) (c : ExtractCall)
    (callback : ProgressEvent → Inside μ → Reply × Inside μ) : Py (Inside μ) Report := do
  let i ← Exn.get
  CompiledModule.borrowing ⟨eng, i.lent⟩ alreadyBorrowed do
    let selection ← Exn.lift (selectionArg c.selection)
    onSession (onWorld (logCall
      (reader.call (.extract { c.args selection with hasProgress := true }))))
    let file ← onSession (onWorld (fileAt reader.path))
    Exn.modify fun i => { i with lent := true }
    let outcome ← fun i =>
      let run := (engine reader.reader file (c.options eng selection)).run callback i
      (.ok run.1, run.2)
    -- A reader opened under another password was free all along.
    Exn.modify fun i => { i with lent := false }
    let report ← liftFault outcome
    pure report.report

/-- `extract` with a callback that may use the archive. -/
def extractWith (eng : Engine) (engine : Extracting) (request : ExtractRequest)
    (callback : ProgressEvent → Inside μ → Reply × Inside μ) : Py (Inside μ) Report := do
  let reader ← onSession (_open eng)
  let i ← Exn.get
  let selection ← onSession (selected ⟨eng, i.lent⟩ request.selection)
  let i ← Exn.get
  let c := { request with progress := none }.toCall selection
    i.session.self.source.wrapperNameSource
  typed (extractLent eng engine reader c callback)

def Program.run (eng : Engine) (engine : Extracting) : Program μ → Inside μ → Reply × Inside μ
  | .reply r, i => (r, i)
  | .remember memory next, i => next.run eng engine { i with memory }
  | .call c next, i =>
      let asked := i.ask eng c
      (next asked.1).run eng engine asked.2
  | .setPassword password next, i => next.run eng engine (i.setPassword password)
  | .extract request callback next, i =>
      let run := extractWith eng engine request
        (fun event i => (callback i.memory event).run eng engine i) { i with replies := [] }
      let after := i.answered (.extract request run.2.replies) (run.1.map .report) run.2
      (next after.memory run.1).run eng engine after

/-! ### The answers of a new archive -/

/-- The callback that gives the replies it remembers. -/
def replaying (_ : ProgressEvent) (i : Inside (List Reply)) : Reply × Inside (List Reply) :=
  match i.memory with
  | [] => (.returns .none, i)
  | reply :: memory => (reply, { i with memory })

/-- The outcome of a question in a session that nobody else uses. -/
def Question.outcome (eng : Engine) (engine : Extracting) (s : Session) :
    Question → Except PyExc Value
  | .call c => (Archive.call eng c s).1
  | .extract request replies =>
      (extractWith eng engine request replaying { session := s, memory := replies }).1.map .report

/-- How the extraction ends under given replies. -/
def Extraction.replayed : Extraction → List Reply → Except Fault CoreReport
  | .ends outcome, _ => outcome
  | .reports event next, replies =>
      (next (buildProgressFn (fun _ _ => replies.headD (.returns .none)) [] event)).replayed
        replies.tail

/-- What the compiled module makes of how an extraction has ended. -/
def reported (outcome : Except Fault CoreReport) : Except PyExc Report :=
  (outcome.mapError Fault.toPyExc).map CoreReport.report

/-- The outcome of an extraction whose callback gives the replies. -/
def extractUnder (V : View) (engine : Extracting) (request : ExtractRequest)
    (replies : List Reply) : Except PyExc Report := do
  let o ← V.opened
  let selection ← View.select (V.entries o) request.selection
  let c := { request with progress := none }.toCall selection V.source.wrapperNameSource
  let compiled : Except PyExc Report := do
    let indices ← selectionArg c.selection
    reported ((engine o.reader V.content (c.options V.eng indices)).replayed replies)
  compiled.mapError PyExc.raised

theorem extractUnder_opened {engine : Extracting} {request : ExtractRequest}
    {replies : List Reply} {o : Opened} (opens : V.opened = .ok o) :
    extractUnder V engine request replies =
      (View.select (V.entries o) request.selection).bind fun selection =>
        let c := { request with progress := none }.toCall selection
          V.source.wrapperNameSource
        Except.mapError PyExc.raised ((selectionArg c.selection).bind fun indices =>
          reported ((engine o.reader V.content (c.options V.eng indices)).replayed replies)) := by
  unfold extractUnder
  rw [opens]
  rfl

def Question.answer (V : View) (engine : Extracting) : Question → Except PyExc Value
  | .call c => (V.call c []).1
  | .extract request replies => (extractUnder V engine request replies).map .report

/-- Only a call can do with the listing. -/
def Question.LooksUp : Question → Prop
  | .call c => c.LooksUp
  | .extract _ _ => False

/-! ### What holds throughout -/

variable {engine : Extracting} {i : Inside μ}
  {callback : ProgressEvent → Inside μ → Reply × Inside μ}

/-- The question was answered as the view answers it under that password, or the reader was
out and the question not a mere look into a listing that was there. -/
def Asked.Right (V : View) (engine : Extracting) (a : Asked) : Prop :=
  a.outcome = a.question.answer (V.withPassword a.password) engine ∨
    a.lent = true ∧ Refused a.outcome ∧ ¬(a.listed = true ∧ a.question.LooksUp)

structure Inside.Sound (V : View) (engine : Extracting) (i : Inside μ) : Prop where
  sees : Sees (V.withPassword i.session.self.password) i.session
  out : i.lent = true → ∃ r, i.session.self.reader = some r
  answers : ∀ a ∈ i.asked, a.Right V engine

/-- No password spends the source. -/
def Unspent (V : View) : Prop := ∀ password, ¬(V.withPassword password).Spends

/-- Another session that sees the same. -/
theorem Inside.Sound.moved (sound : i.Sound V engine) {t : Session}
    (sees : Sees (V.withPassword i.session.self.password) t)
    (out : i.lent = true → ∃ r, t.self.reader = some r) :
    Inside.Sound V engine { i with session := t } where
  sees := by
    have password : t.self.password = i.session.self.password := sees.password
    rw [password]
    exact sees
  out := out
  answers := sound.answers

/-- A question that is answered right keeps the archive sound. -/
theorem Inside.Sound.answered {before : Inside μ} {question : Question}
    {outcome : Except PyExc Value} (sound : i.Sound V engine)
    (right : outcome = question.answer (V.withPassword before.session.self.password) engine ∨
      before.lent = true ∧ Refused outcome ∧
        ¬(before.session.self.entries.isSome = true ∧ question.LooksUp)) :
    (before.answered question outcome i).Sound V engine where
  sees := sound.sees
  out := sound.out
  answers := by
    intro a asked
    rcases List.mem_append.mp asked with earlier | last
    · exact sound.answers a earlier
    · rw [List.mem_singleton.mp last]
      exact right

/-- What a call comes to, wherever the reader is. -/
theorem Inside.Sound.called (sound : i.Sound V engine) (unspent : Unspent V) (c : Call) :
    let run := call ⟨V.eng, i.lent⟩ c i.session
    Sees (V.withPassword i.session.self.password) run.2 ∧
      (i.lent = true → ∃ r, run.2.self.reader = some r) ∧
      (run.1 = ((V.withPassword i.session.self.password).call c []).1 ∨
        i.lent = true ∧ Refused run.1 ∧
          ¬(i.session.self.entries.isSome = true ∧ c.LooksUp)) := by
  rcases lent : i.lent with _ | _
  · exact ⟨sound.sees.call fun _ => unspent _, nofun, Or.inl (sound.sees.call_outcome c)⟩
  · obtain ⟨r, cached⟩ := sound.out lent
    have came := Ready.call_while ⟨sound.sees, cached⟩ c
    refine ⟨came.ready.1, fun _ => ⟨r, came.ready.2⟩, came.answers.imp ?_ fun refused => ?_⟩
    · exact fun home => home.trans (sound.sees.call_outcome c)
    · exact ⟨rfl, refused⟩

theorem Inside.Sound.ask (sound : i.Sound V engine) (unspent : Unspent V) (c : Call) :
    (i.ask V.eng c).2.Sound V engine := by
  obtain ⟨sees, out, right⟩ := sound.called unspent c
  exact (sound.moved sees out).answered right

theorem Inside.Sound.remember (sound : i.Sound V engine) (memory : μ) :
    Inside.Sound V engine { i with memory } :=
  ⟨sound.sees, sound.out, sound.answers⟩

theorem Inside.Sound.replied (sound : i.Sound V engine) (replies : List Reply) :
    Inside.Sound V engine { i with replies } :=
  ⟨sound.sees, sound.out, sound.answers⟩

theorem Inside.Sound.setPassword (sound : i.Sound V engine) (password : Option String) :
    (i.setPassword password).Sound V engine where
  sees := sound.sees.setPassword password
  out := nofun
  answers := sound.answers

/-- A callback that keeps the archive sound keeps it so over a whole extraction. -/
theorem Extraction.run_sound
    (keeps : ∀ event i, Inside.Sound V engine i → (callback event i).2.Sound V engine)
    (extraction : Extraction) (sound : i.Sound V engine) :
    (extraction.run callback i).2.Sound V engine := by
  induction extraction generalizing i with
  | ends outcome => exact sound
  | reports event next ih =>
      have heard : (notified callback event i).2.Sound V engine := by
        unfold notified
        rw [eventFromRaw_decoded]
        exact (keeps event.decoded i sound).replied _
      exact ih _ heard

/-- An extraction ends as it does under the replies that it has had. -/
theorem Extraction.run_replies (restores : ∀ event i, (callback event i).2.replies = i.replies)
    (extraction : Extraction) (i : Inside μ) :
    ∃ replies, (extraction.run callback i).2.replies = i.replies ++ replies ∧
      (extraction.run callback i).1 = extraction.replayed replies := by
  induction extraction generalizing i with
  | ends outcome => exact ⟨[], (List.append_nil _).symm, rfl⟩
  | reports event next ih =>
      obtain ⟨replies, recorded, ended⟩ :=
        ih (notified callback event i).1 (notified callback event i).2
      have heard : (notified callback event i).2.replies =
          i.replies ++ [(callback event.decoded i).1] := by
        unfold notified
        rw [eventFromRaw_decoded]
        exact congrArg (· ++ _) (restores event.decoded i)
      have flow : (notified callback event i).1 =
          buildProgressFn (fun _ _ => (callback event.decoded i).1) [] event := by
        unfold notified
        rw [eventFromRaw_decoded]
      refine ⟨(callback event.decoded i).1 :: replies, ?_, ?_⟩
      · rw [heard, List.append_assoc] at recorded
        exact recorded
      · refine ended.trans ?_
        rw [flow]
        rfl

/-- Replaying replies is having them. -/
theorem Extraction.run_replaying (extraction : Extraction) (i : Inside (List Reply)) :
    (extraction.run replaying i).1 = extraction.replayed i.memory := by
  induction extraction generalizing i with
  | ends outcome => rfl
  | reports event next ih =>
      have heard : (notified replaying event i).1 =
            buildProgressFn (fun _ _ => i.memory.headD (.returns .none)) [] event ∧
          (notified replaying event i).2.memory = i.memory.tail := by
        unfold notified replaying
        rw [eventFromRaw_decoded]
        rcases memory : i.memory with _ | ⟨reply, memory⟩
        · exact ⟨rfl, memory⟩
        · exact ⟨rfl, rfl⟩
      refine (ih _ _).trans ?_
      rw [heard.1, heard.2]
      rfl

/-- Giving the reader back. -/
theorem Inside.Sound.returned (sound : i.Sound V engine) :
    Inside.Sound V engine { i with lent := false } where
  sees := sound.sees
  out := nofun
  answers := sound.answers

theorem onSession_run {α : Type} {x : Py Session α} {outcome : Except PyExc α} {t : Session}
    (run : x i.session = (outcome, t)) : onSession x i = (outcome, { i with session := t }) := by
  unfold onSession
  rw [Exn.zoom_apply, run]

theorem extractLent_out {eng : Engine} {c : ExtractCall} (out : i.lent = true) :
    extractLent eng engine r c callback i = (.error alreadyBorrowed, i) := by
  unfold extractLent
  rw [Exn.get_bind_apply, out]
  rfl

theorem extractLent_refused {eng : Engine} {c : ExtractCall} {exc : PyExc}
    (free : i.lent = false) (refused : selectionArg c.selection = .error exc) :
    extractLent eng engine r c callback i = (.error exc, i) := by
  unfold extractLent
  rw [Exn.get_bind_apply, free, refused]
  rfl

/-- The archive as the extraction finds it: the engine has been asked, and has the reader. -/
def Inside.given (i : Inside μ) (call : EngineCall) : Inside μ :=
  { i with
    session := { i.session with world := i.session.world.logged call }
    lent := true }

/-- With the reader at home, the extraction runs and gives it back. -/
theorem extractLent_run {c : ExtractCall} {selection : Option (List Nat)}
    {outcome : Except Fault CoreReport} {j : Inside μ} (eng : Engine) (free : i.lent = false)
    (converted : selectionArg c.selection = .ok selection)
    (ran : (engine r.reader (i.session.world.files r.path) (c.options eng selection)).run
      callback (i.given (r.call (.extract { c.args selection with hasProgress := true }))) =
        (outcome, j)) :
    extractLent eng engine r c callback i = (reported outcome, { j with lent := false }) := by
  have ended : extractLent eng engine r c callback i =
      (do let report ← liftFault outcome; pure report.report : Py (Inside μ) Report)
        { j with lent := false } := by
    unfold extractLent
    rw [Exn.get_bind_apply, free, converted]
    have outcomes := congrArg Prod.fst ran
    have states := congrArg Prod.snd ran
    dsimp only at outcomes states
    rw [← outcomes, ← states]
    rfl
  rw [ended]
  rcases outcome with fault | report <;> rfl

/-- What an extraction comes to that finds the reader at home: it fails before the engine has
the reader, or it is what the engine reports. -/
inductive Extracts (V : View) (engine : Extracting) (request : ExtractRequest)
    (callback : ProgressEvent → Inside μ → Reply × Inside μ) (i : Inside μ)
    (run : Except PyExc Report × Inside μ) : Prop
  | fails (exc : PyExc) (t : Session) (sees : Sees V t)
      (ended : run = (.error exc, { i with session := t }))
      (alike : ∀ replies, extractUnder V engine request replies = .error exc)
  | runs (extraction : Extraction) (r : RustArchive) (t : Session) (ready : Ready V r t)
      (ended : run =
        ((reported (extraction.run callback { i with session := t, lent := true }).1).mapError
          PyExc.raised,
          { (extraction.run callback { i with session := t, lent := true }).2 with lent := false }))
      (alike : ∀ replies, extractUnder V engine request replies =
        (reported (extraction.replayed replies)).mapError PyExc.raised)

variable (callback) in
theorem Inside.Sound.extracts (sound : i.Sound V engine) (unspent : Unspent V)
    (request : ExtractRequest) (free : i.lent = false) :
    Extracts (V.withPassword i.session.self.password) engine request callback i
      (extractWith V.eng engine request callback i) := by
  rcases i with ⟨s, memory, lent, asked, replies⟩
  obtain rfl : lent = false := free
  have sees : Sees (V.withPassword s.self.password) s := sound.sees
  dsimp only
  unfold extractWith
  rcases opens : (V.withPassword s.self.password).opened with exc | o
  · obtain ⟨t, failed, left, -⟩ := sees._open_error opens
    refine .fails exc t (left.resolve_right (unspent _))
      (Exn.bind_of_error (onSession_run failed) _) fun replies => ?_
    unfold extractUnder
    rw [opens]
    rfl
  obtain ⟨r, t, opened, rfl, ready, -⟩ := sees._open_ok opens
  obtain ⟨u, looked, ready', -⟩ := Ready.selected_run ready request.selection
  replace opened : _open V.eng s = (.ok r, t) := opened
  replace looked : selected V.eng request.selection t = _ := looked
  rw [Exn.bind_of_ok (onSession_run opened), Exn.get_bind_apply]
  rcases selects : View.select ((V.withPassword s.self.password).entries r.toOpened)
      request.selection with exc | selection
  · rw [selects] at looked
    have failed := onSession_run (i := ⟨t, memory, false, asked, replies⟩) looked
    refine .fails exc u ready'.1 (Exn.bind_of_error failed _) fun replies => ?_
    rw [extractUnder_opened opens, selects]
    rfl
  rw [selects] at looked
  have named := ready'.1.alike.wrapperNameSource
  have found := onSession_run (i := ⟨t, memory, false, asked, replies⟩) looked
  let c := { request with progress := none }.toCall selection u.self.source.wrapperNameSource
  have alike (replies : List Reply) :
      extractUnder (V.withPassword s.self.password) engine request replies =
        (do let indices ← selectionArg c.selection
            reported ((engine r.reader (V.withPassword s.self.password).content
              (c.options V.eng indices)).replayed replies) : Except PyExc Report).mapError
          PyExc.raised := by
    rw [extractUnder_opened opens, selects, ← named]
    rfl
  have compiled : ∀ run,
      extractLent V.eng engine r c callback ⟨u, memory, false, asked, replies⟩ = run →
      (do
        let selection ← onSession (selected V.eng request.selection)
        let i ← Exn.get
        let c := { request with progress := none }.toCall selection
          i.session.self.source.wrapperNameSource
        typed (extractLent V.eng engine r c callback) : Py (Inside μ) Report)
        ⟨t, memory, false, asked, replies⟩ = (run.1.mapError PyExc.raised, run.2) := by
    rintro _ rfl
    rw [Exn.bind_of_ok found, Exn.get_bind_apply, typed_apply]
  rcases converted : selectionArg c.selection with exc | indices
  · refine .fails exc.raised u ready'.1 (compiled _ (extractLent_refused rfl converted))
      fun replies => ?_
    rw [alike, converted]
    rfl
  · let call := r.call (.extract { c.args indices with hasProgress := true })
    let extraction := engine r.reader (u.world.files r.path) (c.options V.eng indices)
    have logged : Ready _ r { u with world := u.world.logged call } :=
      ready'.ofSame (((World.Quiet.refl _).logged call).same _)
    refine .runs extraction r _ logged
      (compiled _ (extractLent_run V.eng rfl converted rfl)) fun replies => ?_
    rw [alike, converted]
    have file := ready'.reads.file
    unfold extraction
    rw [file]
    rfl

variable (callback) in
/-- An extraction that is asked for while the reader is out does nothing. -/
theorem Inside.Sound.extract_out (sound : i.Sound V engine) (request : ExtractRequest)
    (out : i.lent = true) :
    ∃ exc, extractWith V.eng engine request callback i = (.error exc, i) ∧
      ((∀ replies, extractUnder (V.withPassword i.session.self.password) engine request replies =
          .error exc) ∨
        Refused (.error exc)) := by
  obtain ⟨r, cached⟩ := sound.out out
  have ready : Ready (V.withPassword i.session.self.password) r i.session := ⟨sound.sees, cached⟩
  have opened : onSession (_open V.eng) i = (.ok r, i) := onSession_run ready._open_run
  unfold extractWith
  rw [Exn.bind_of_ok opened, Exn.get_bind_apply, out]
  rcases ready.selected_looks request.selection with missing | still
  · exact ⟨_, Exn.bind_of_error (onSession_run missing) _, Or.inr (Or.inl rfl)⟩
  · obtain ⟨t, home, -⟩ := Ready.selected_run ready request.selection
    replace home : selected V.eng request.selection i.session = _ := home
    replace still : Exn.Still i.session (selected ⟨V.eng, true⟩ request.selection)
      (selected V.eng request.selection) := still
    have stays : i.session = t := by rw [← still.2, still.1, home]
    rcases selects : View.select ((V.withPassword i.session.self.password).entries r.toOpened)
        request.selection with exc | selection <;> rw [selects] at home
    · have looked : selected ⟨V.eng, true⟩ request.selection i.session =
          (.error exc, i.session) := by
        rw [still.1, home, ← stays]
      refine ⟨exc, Exn.bind_of_error (onSession_run looked) _, Or.inl fun replies => ?_⟩
      rw [extractUnder_opened ready.opened, selects]
      rfl
    · have looked : selected ⟨V.eng, true⟩ request.selection i.session =
          (.ok selection, i.session) := by
        rw [still.1, home, ← stays]
      refine ⟨alreadyBorrowed.raised, ?_, Or.inr (Or.inr (Or.inr rfl))⟩
      rw [Exn.bind_of_ok (onSession_run looked), Exn.get_bind_apply, typed_apply,
        extractLent_out out]
      rfl

variable (callback) in
/-- An extraction keeps the archive sound, however its callback uses it. -/
theorem extractWith_sound
    (keeps : ∀ event i, Inside.Sound V engine i → (callback event i).2.Sound V engine)
    (unspent : Unspent V) (request : ExtractRequest) (sound : i.Sound V engine) :
    (extractWith V.eng engine request callback i).2.Sound V engine := by
  rcases lent : i.lent with _ | _
  · rcases sound.extracts callback unspent request lent with
      ⟨exc, t, sees, ended, -⟩ | ⟨extraction, r, t, ready, ended, -⟩
    · rw [ended]
      exact sound.moved sees fun out => by cases lent.symm.trans out
    · have password : t.self.password = i.session.self.password := ready.1.password
      have given : Inside.Sound V engine { i with session := t, lent := true } :=
        ⟨by rw [password]; exact ready.1, fun _ => ⟨r, ready.2⟩, sound.answers⟩
      rw [ended]
      exact (Extraction.run_sound keeps extraction given).returned
  · obtain ⟨exc, ended, -⟩ := sound.extract_out callback request lent
    rw [ended]
    exact sound

variable (callback) in
/-- An extraction is answered right for the replies it has had. -/
theorem extractWith_right (restores : ∀ event i, (callback event i).2.replies = i.replies)
    (unspent : Unspent V) (request : ExtractRequest) (sound : i.Sound V engine)
    (begun : i.replies = []) :
    let run := extractWith V.eng engine request callback i
    run.1 = extractUnder (V.withPassword i.session.self.password) engine request run.2.replies ∨
      i.lent = true ∧ Refused (run.1.map .report) := by
  intro run
  rcases lent : i.lent with _ | _
  · rcases sound.extracts callback unspent request lent with
      ⟨exc, t, -, ended, alike⟩ | ⟨extraction, r, t, -, ended, alike⟩
    · rw [alike]
      exact Or.inl (congrArg Prod.fst ended)
    · obtain ⟨replies, recorded, outcome⟩ :=
        extraction.run_replies restores { i with session := t, lent := true }
      have only : (extraction.run callback { i with session := t, lent := true }).2.replies =
          replies := recorded.trans (congrArg (· ++ replies) begun)
      refine Or.inl ?_
      unfold run
      rw [alike, ended]
      dsimp only
      rw [only, outcome]
  · obtain ⟨exc, ended, alike | refused⟩ := sound.extract_out callback request lent
    · rw [alike]
      exact Or.inl (congrArg Prod.fst ended)
    · refine Or.inr ⟨rfl, ?_⟩
      unfold run
      rw [ended]
      exact refused

theorem Program.run_replies (eng : Engine) (engine : Extracting) (program : Program μ)
    (i : Inside μ) : (program.run eng engine i).2.replies = i.replies := by
  induction program generalizing i with
  | reply r => rfl
  | remember memory next ih => exact ih _
  | call c next ih => exact ih _ _
  | setPassword password next ih => exact ih _
  | extract request callback next _ ih => exact ih _ _ _

theorem Program.run_sound (unspent : Unspent V) (program : Program μ)
    (sound : i.Sound V engine) : (program.run V.eng engine i).2.Sound V engine := by
  induction program generalizing i with
  | reply r => exact sound
  | remember memory next ih => exact ih (sound.remember memory)
  | call c next ih => exact ih _ (sound.ask unspent c)
  | setPassword password next ih => exact ih (sound.setPassword password)
  | extract request callback next ihCallback ih =>
      let used (event : ProgressEvent) (i : Inside μ) : Reply × Inside μ :=
        (callback i.memory event).run V.eng engine i
      have begun := sound.replied []
      have after := extractWith_sound used
        (fun event i sound => ihCallback i.memory event sound) unspent request begun
      have right := extractWith_right used
        (fun event i => (callback i.memory event).run_replies V.eng engine i) unspent request
        begun rfl
      refine ih _ _ (after.answered (right.imp (congrArg (Except.map Value.report)) ?_))
      exact fun refused => ⟨refused.1, refused.2, fun both => both.2⟩

/-- A question on a session that nobody else uses has the answer of the view. -/
theorem Sees.question (sees : Sees V s) (unspent : Unspent V) (question : Question) :
    question.outcome V.eng engine s = question.answer V engine := by
  cases question with
  | call c => exact sees.call_outcome c
  | extract request replies =>
      refine congrArg (Except.map Value.report) ?_
      have same : V.withPassword s.self.password = V := by
        rw [sees.password]
        rfl
      have sound : Inside.Sound V engine { session := s, memory := replies } :=
        { sees := by dsimp only; rwa [same]
          out := nofun
          answers := fun a asked => by cases asked }
      have extracts := sound.extracts replaying unspent request rfl
      dsimp only at extracts
      rw [same] at extracts
      rcases extracts with ⟨exc, t, -, ended, alike⟩ | ⟨extraction, r, t, -, ended, alike⟩
      · rw [ended, alike]
      · rw [ended, alike, extraction.run_replaying]

/-! ### Nothing stays lent out -/

/-- The extraction under a callback that is a function of the events so far. -/
def Extraction.answered (progress : List CoreEvent → CoreEvent → Flow) :
    Extraction → List CoreEvent → Except Fault CoreReport
  | .ends outcome, _ => outcome
  | .reports event next, before =>
      (next (progress before event)).answered progress (before ++ [event])

/-- What `extract_all` of the reader comes to under any callback. -/
def Carries (engine : Extracting) (reader : Reader) : Prop :=
  ∀ file options progress, options.progress = some progress →
    reader.extractAll file options =
      (engine reader file { options with progress := none }).answered progress []

/-- The callback that remembers its events and answers them. -/
def answering (progress : ProgressCallback) (handed : List ProgressEvent)
    (event : ProgressEvent) : Program (List ProgressEvent) :=
  .remember (handed ++ [event]) (.reply (progress (handed ++ [event])))

variable (eng : Engine) (engine : Extracting) (progress : ProgressCallback)

theorem Extraction.run_answering (extraction : Extraction) {before : List CoreEvent}
    (inside : Inside (List ProgressEvent))
    (handed : inside.memory = before.map CoreEvent.decoded) :
    ∃ memory replies, extraction.run
        (fun event i => (answering progress i.memory event).run eng engine i) inside =
      (extraction.answered (buildProgressFn (wrapProgress progress)) before,
        { inside with memory, replies }) := by
  induction extraction generalizing before inside with
  | ends outcome => exact ⟨_, _, rfl⟩
  | reports event next ih =>
      let handedAll := (before ++ [event]).map CoreEvent.decoded
      let remembered : Inside (List ProgressEvent) :=
        { inside with
          memory := handedAll
          replies := inside.replies ++ [progress handedAll] }
      have heard : notified
          (fun event i => (answering progress i.memory event).run eng engine i) event inside =
          (buildProgressFn (wrapProgress progress) before event, remembered) := by
        unfold notified buildProgressFn remembered handedAll
        rw [eventFromRaw_decoded, wrapProgress_decoded, List.map_append, ← handed]
        rfl
      obtain ⟨memory, replies, run⟩ :=
        ih (buildProgressFn (wrapProgress progress) before event) remembered rfl
      refine ⟨memory, replies, ?_⟩
      unfold Extraction.run
      rw [heard]
      exact run

/-- Around a callback that only answers, the extraction is that of the compiled module. -/
theorem extractLent_answering {s : Session} {silent c : ExtractCall} (asked : List Asked)
    (silenced : silent = { c with progress := none })
    (given : c.progress = some (wrapProgress progress)) (carries : Carries engine r.reader) :
    ∃ memory replies, extractLent eng engine r silent
        (fun event i => (answering progress i.memory event).run eng engine i)
        { session := s, memory := [], asked } =
      ((onWorld (r.extract eng c) s).1,
        { session := (onWorld (r.extract eng c) s).2, memory, asked, replies }) := by
  have same : selectionArg silent.selection = selectionArg c.selection := by rw [silenced]
  have compiled := r.extract_asks eng c s.world
  rcases converted : selectionArg c.selection with exc | selection
  · refine ⟨[], [], ?_⟩
    rw [converted] at compiled
    rw [onWorld_run compiled]
    unfold extractLent
    rw [Exn.get_bind_apply, same, converted]
    rfl
  · rw [converted] at compiled
    have call : { silent.args selection with hasProgress := true } = c.args selection := by
      unfold ExtractCall.args
      rw [silenced, given]
      rfl
    have options : silent.options eng selection =
        { c.options eng selection with progress := none } := by
      rw [silenced]
      rfl
    have carried := carries (s.world.files r.path) (c.options eng selection)
      (buildProgressFn (wrapProgress progress)) (congrArg (Option.map buildProgressFn) given)
    let home : Inside (List ProgressEvent) := { session := s, memory := [], asked }
    have handed : (home.given (r.call (.extract (c.args selection)))).memory =
        ([] : List CoreEvent).map CoreEvent.decoded := rfl
    obtain ⟨memory, replies, run⟩ := Extraction.run_answering eng engine progress
      (engine r.reader (s.world.files r.path) (silent.options eng selection)) _ handed
    rw [← call] at run
    refine ⟨memory, replies, ?_⟩
    have lent := extractLent_run (i := home) (c := silent) eng rfl (same.trans converted) run
    rw [options, ← carried] at lent
    rw [onWorld_run compiled]
    refine lent.trans ?_
    rw [call]
    rfl

/-- `extractWith` is `extract` for a callback that leaves the archive alone. -/
theorem extractWith_answering {s : Session} (request : ExtractRequest) (asked : List Asked)
    (carries : ∀ reader t, _open eng s = (.ok reader, t) → Carries engine reader.reader) :
    ∃ memory replies, extractWith eng engine request
        (fun event i => (answering progress i.memory event).run eng engine i)
        { session := s, memory := [], asked } =
      ((extract eng { request with progress := some progress } s).1,
        { session := (extract eng { request with progress := some progress } s).2
          memory
          asked
          replies }) := by
  unfold extractWith extract
  rcases opened : _open eng s with ⟨exc | reader, s₁⟩
  · refine ⟨[], [], ?_⟩
    rw [Exn.bind_of_error (onSession_run opened), Exn.bind_of_error opened]
  rw [Exn.bind_of_ok (onSession_run opened), Exn.bind_of_ok opened, Exn.get_bind_apply]
  rcases looked : Archive.selected eng request.selection s₁ with ⟨exc | selection, s₂⟩
  · refine ⟨[], [], ?_⟩
    rw [Exn.bind_of_error (onSession_run looked), Exn.bind_of_error looked]
  rw [Exn.bind_of_ok (onSession_run looked), Exn.bind_of_ok looked, Exn.get_bind_apply,
    Exn.get_bind_apply]
  let c := { request with progress := some progress }.toCall selection
    s₂.self.source.wrapperNameSource
  obtain ⟨memory, replies, run⟩ := extractLent_answering eng engine progress (c := c) (s := s₂)
    asked rfl rfl (carries reader s₁ opened)
  refine ⟨memory, replies, ?_⟩
  rw [typed_apply, typed_apply]
  exact congrArg (fun p => (p.1.mapError PyExc.raised, p.2)) run

/-! ## Everything a user can do -/

theorem Inside.Sound.new (files : FilePath → Option Bytes) {source : Source}
    (readable : source.Readable) (password encoding : Option String) (memory : μ) :
    Inside.Sound (View.over eng files source password encoding) engine
      { session := init files source password encoding, memory } where
  sees := init_sees eng files readable password encoding
  out := fun lent => by cases lent
  answers := fun a asked => by cases asked

end Archive

end NewtuaPy
