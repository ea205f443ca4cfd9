import NewtuaPy.BatchSelection
import NewtuaPy.Sending

/-!
# A batch on processes beside a batch on threads

The two backends of a batch differ in what is sent to another process and back, and in
nothing else, as long as no process dies.
-/

namespace NewtuaPy

namespace Batch

variable {α J R σ : Type} {pickle : Pickle} {send : J → Except PyExc Unit}
  {run : Nat → J → Except PyExc α} {processes threads : Pool α} {host : Host}
  {maxWorkers : Option Int} {cancel : Cancel} {result : J → Option α → Option PyExc → R}
  {onProcesses onThreads : Callbacks σ J α} {items : List J}

/-- `x` returns these results in any case, and `y` returns the very same exactly if `fits`. -/
def Agree (x y : Py σ (List R)) (results : List R) (fits : Prop) : Prop :=
  (∀ s, ∃ s', x s = (.ok results, s')) ∧ ∀ t, (∃ t', y t = (.ok results, t')) ↔ fits

/-- A batch on processes returns, and a batch on threads returns the same exactly if the
outcome of every item submitted is carried over. -/
theorem runMany_backends (takes : Takes host "process" (workers maxWorkers host.cpuCount))
    (processesAccept : ∀ k, processes.refuses k = none)
    (threadsAccept : ∀ k, threads.refuses k = none) (processesQuiet : onProcesses.Quiet)
    (threadsQuiet : onThreads.Quiet) (faithful : Faithful result) (refuses : Refuses send)
    (own : ∀ i item exc, run i item = .error exc → Own exc) :
    Agree
      (runMany result (pickle.sent send run) host "process" maxWorkers processes onProcesses
        cancel items)
      (runMany result run host "thread" maxWorkers threads onThreads cancel items)
      (collated result (pickle.sent send run) cancel items)
      (∀ p ∈ placed cancel items, Carried send run p.2 p.1) := by
  have threadsTake : Takes host "thread" (workers maxWorkers host.cpuCount) :=
    takes_thread takes.1
  obtain ⟨_, processesMade⟩ := _makeExecutor_takes (.inr rfl) takes
  obtain ⟨_, threadsMade⟩ := _makeExecutor_takes (.inl rfl) threadsTake
  have records : collated result (pickle.sent send run) cancel items =
      collated result run cancel items ↔ ∀ p ∈ placed cancel items, Carried send run p.2 p.1 := by
    refine List.map_inj_left.trans (forall₂_congr fun p _ => ?_)
    exact pickle.settle_sent_iff faithful (own p.2 p.1)
  refine ⟨fun s => ?_, fun t => ⟨?_, ?_⟩⟩
  · exact (runMany_returns_iff processesAccept processesMade processesQuiet s).mpr fun p _ =>
      pickle.sent_ordinary refuses (own p.2 p.1)
  · rintro ⟨t', returned⟩
    have ordinary : ∀ p ∈ placed cancel items, Ordinary (run p.2 p.1) := by
      intro p member
      by_contra escapes
      obtain ⟨exc, raised⟩ := runMany_escapes result threadsAccept threadsMade p member escapes t
      cases raised.symm.trans returned
    obtain ⟨t'', returns⟩ :=
      (runMany_returns_iff threadsAccept threadsMade threadsQuiet t).mpr ordinary
    exact records.mp (Except.ok.inj (congrArg Prod.fst (returned.symm.trans returns)))
  · intro carried
    rw [records.mpr carried]
    exact (runMany_returns_iff threadsAccept threadsMade threadsQuiet t).mpr fun p member =>
      (carried p member).ordinary refuses (own p.2 p.1)

/-- Where no worker process dies, a batch on processes returns whatever its tasks raise,
panics included, with a record for every item submitted; a batch on threads returns the very
same list exactly if every such item can be sent and its task does not panic, or pickling
refuses it with the very exception that its task ends in. -/
theorem backends_agree_iff (pickle : Pickle) (engines : Nat → Engine) (worlds : Nat → World)
    (password encoding : Option String) (host : Host) (maxWorkers : Option Int)
    (takes : Takes host "process" (workers maxWorkers host.cpuCount)) (cancel : Cancel)
    (jobs : List JobArg) (plain : ∀ job, .job job ∈ jobs → job.progress = none)
    (archives : List PathArg)
    (extracting extracting' : Pool Report) (listing listing' : Pool (List Entry))
    (accepts : (∀ k, extracting.refuses k = none) ∧ ∀ k, listing.refuses k = none)
    (accepts' : (∀ k, extracting'.refuses k = none) ∧ ∀ k, listing'.refuses k = none)
    (onExtract onExtract' : Callbacks σ ExtractJob Report)
    (onList onList' : Callbacks σ PathArg (List Entry))
    (quiet : onExtract.Quiet ∧ onList.Quiet) (quiet' : onExtract'.Quiet ∧ onList'.Quiet) :
    Agree
      (extractMany (pickle.sent pickle.sendJob (extracts engines worlds)) host "process"
        maxWorkers extracting onExtract cancel jobs)
      (extractMany (extracts engines worlds) host "thread" maxWorkers extracting' onExtract'
        cancel jobs)
      (collated BatchResult.mk (pickle.sent pickle.sendJob (extracts engines worlds)) cancel
        (jobs.map _normaliseJob))
      (∀ p ∈ placed cancel (jobs.map _normaliseJob),
        Portable pickle p.1 ∧ Ordinary (extracts engines worlds p.2 p.1) ∨
          Echoes pickle.sendJob (extracts engines worlds) p.2 p.1) ∧
    Agree
      (listMany (pickle.sent pickle.sendPath (lists engines worlds password encoding)) host
        "process" maxWorkers listing onList cancel archives)
      (listMany (lists engines worlds password encoding) host "thread" maxWorkers listing'
        onList' cancel archives)
      (collated ListingResult.mk (pickle.sent pickle.sendPath (lists engines worlds password
        encoding)) cancel archives)
      (∀ p ∈ placed cancel archives,
        pickle.refusal p.1 = none ∧ Ordinary (lists engines worlds password encoding p.2 p.1) ∨
          Echoes pickle.sendPath (lists engines worlds password encoding) p.2 p.1) := by
  constructor
  · rw [extractMany_eq_runMany (Or.inr ⟨rfl, plain⟩), extractMany_eq_runMany (Or.inl rfl)]
    simp only [← Pickle.sendJob_ok]
    exact runMany_backends takes accepts.1 accepts'.1 quiet.1 quiet'.1 batchResult_faithful
      pickle.sendJob_refuses (extracts_own engines worlds)
  · simp only [← Pickle.sendPath_ok]
    exact runMany_backends takes accepts.2 accepts'.2 quiet.2 quiet'.2 listingResult_faithful
      pickle.sendPath_refuses (lists_own engines worlds password encoding)

/-- A selection of the entries of an open archive. -/
def ownedJob : ExtractJob :=
  selecting ((entriesFromRaw [entryData onlyEntry] true).1.map .entry)

/-- A job that selects an entry by itself comes back from a process with a `TypeError`. -/
theorem backends_agree_iff_owned :
    (∃ s', extractMany (plainPickle.sent plainPickle.sendJob (extracts (fun _ => oneFile)
        fun _ => anyFile)) {} "process" (some 2) backwards silent none [.job ownedJob] () =
      (.ok [⟨ownedJob, none, some reduceRefused⟩], s')) ∧
    ¬ ∃ t', extractMany (extracts (fun _ => oneFile) fun _ => anyFile) {} "thread" (some 2)
        backwards silent none [.job ownedJob] () =
      (.ok [⟨ownedJob, none, some reduceRefused⟩], t') := by
  have takes : Takes {} "process" (workers (some 2) none) :=
    ⟨by decide, fun _ => ⟨nofun, by decide, by decide⟩⟩
  obtain ⟨processes, threads⟩ := (backends_agree_iff plainPickle (fun _ => oneFile)
    (fun _ => anyFile) none none {} (some 2) takes none [.job ownedJob]
    (fun job listed => by cases List.mem_singleton.mp listed; rfl) []
    backwards backwards backwards backwards ⟨fun _ => rfl, fun _ => rfl⟩
    ⟨fun _ => rfl, fun _ => rfl⟩ (silent : Callbacks Unit _ _) silent silent silent
    ⟨silent_quiet, silent_quiet⟩ ⟨silent_quiet, silent_quiet⟩).1
  refine ⟨processes (), fun returned => ?_⟩
  rcases (threads ()).mp returned (ownedJob, 0) List.mem_cons_self with ⟨portable, -⟩ | echoes
  · cases portable.entries _ rfl _ List.mem_cons_self
  · obtain ⟨exc, exc', -, ends, -⟩ := echoes
    cases ends

end Batch

end NewtuaPy
