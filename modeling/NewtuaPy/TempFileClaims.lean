import NewtuaPy.StreamAgree
import NewtuaPy.Upkeep

/-!
# Claims on spilled files

`World.Accounted w claims` says that every `_TempFile` of `w` counts exactly the
claims that `claims` ascribes to it, that its file exists while the count is
positive, and that it has been deleted once the count is not.  Holding,
releasing and spilling change `claims` at one place.  The claims of a session
are those of the archive and of the open pipe streams; every operation of the
archive keeps them accounted.
-/

namespace NewtuaPy

/-! ## Accounting -/

/-- The `t`-th temp file counts `claims` claims and is on disk while there are any. -/
structure TempFile.Counts (f : TempFile) (files : FilePath → Option Bytes) (t claims : Nat) :
    Prop where
  path : f.path = .temp t
  holders : f.holders = claims
  present : (files f.path).isSome = true ↔ 0 < claims
  deleted : f.deleteCalls = if 0 < claims then 0 else 1

structure World.Accounted (w : World) (claims : Nat → Nat) : Prop where
  count : w.nextTemp = w.temps.length
  counts : ∀ (t : Nat) (f : TempFile), w.temps[t]? = some f → f.Counts w.files t (claims t)
  bounded : ∀ t, 0 < claims t → t < w.temps.length

namespace World.Accounted

variable {w : World} {claims : Nat → Nat} {t : Nat}

theorem quiet (h : w.Accounted claims) {w' : World} (quiet : w.Quiet w') :
    w'.Accounted claims where
  count := by rw [quiet.nextTemp, quiet.temps, h.count]
  counts := by rw [quiet.temps, quiet.files]; exact h.counts
  bounded := by rw [quiet.temps]; exact h.bounded

/-- The streams themselves carry no file. -/
theorem withStreams (h : w.Accounted claims) (streams : List PipeStream) :
    { w with streams }.Accounted claims := ⟨h.count, h.counts, h.bounded⟩

/-- The temp file of a claim. -/
theorem claimed (h : w.Accounted claims) (positive : 0 < claims t) :
    ∃ f, w.temps[t]? = some f ∧ f.Counts w.files t (claims t) :=
  have entry := List.getElem?_eq_getElem (h.bounded t positive)
  ⟨_, entry, h.counts t _ entry⟩

/-- One temp file changes, with its count and what is on disk for it. -/
theorem set (h : w.Accounted claims) {w' : World} {f : TempFile} {n : Nat}
    (inside : t < w.temps.length) (temps : w'.temps = w.temps.set t f)
    (next : w'.nextTemp = w.nextTemp) (counts : f.Counts w'.files t n)
    (others : ∀ t', t' ≠ t → w'.files (.temp t') = w.files (.temp t')) :
    w'.Accounted (Function.update claims t n) where
  count := by rw [next, temps, List.length_set, h.count]
  counts := by
    intro t' f' entry
    rw [temps, List.getElem?_set] at entry
    by_cases this : t = t'
    · subst this
      rw [if_pos rfl, if_pos inside] at entry
      cases entry
      rw [Function.update_self]
      exact counts
    · rw [if_neg this] at entry
      rw [Function.update_of_ne (Ne.symm this)]
      have old := h.counts t' f' entry
      have kept := others t' (Ne.symm this)
      exact ⟨old.path, old.holders, by rw [old.path, kept, ← old.path]; exact old.present,
        old.deleted⟩
  bounded := by
    intro t' positive
    rw [temps, List.length_set]
    by_cases this : t' = t
    · exact this ▸ inside
    · rw [Function.update_of_ne this] at positive
      exact h.bounded t' positive

theorem hold (h : w.Accounted claims) (positive : 0 < claims t) :
    (w.modifyTemp t fun f => { f with holders := f.holders + 1 }).Accounted
      (Function.update claims t (claims t + 1)) := by
  obtain ⟨f, entry, counts⟩ := h.claimed positive
  have temps : w.temps.modify t (fun f => { f with holders := f.holders + 1 }) =
      w.temps.set t { f with holders := f.holders + 1 } := by
    rw [List.modify_eq_set_getElem?, entry]
    rfl
  refine h.set (h.bounded t positive) temps rfl ?_ fun _ _ => rfl
  have present := counts.present
  have deleted := counts.deleted
  rw [if_pos positive] at deleted
  exact
    { path := counts.path
      holders := congrArg (· + 1) counts.holders
      present := iff_of_true (present.mpr positive) (Nat.succ_pos _)
      deleted := deleted.trans (if_pos (Nat.succ_pos _)).symm }

/-- The last release deletes the file, every other leaves it. -/
theorem release (h : w.Accounted claims) (positive : 0 < claims t) :
    (w.afterRelease t).Accounted (Function.update claims t (claims t - 1)) := by
  obtain ⟨f, entry, counts⟩ := h.claimed positive
  have inside := h.bounded t positive
  have holders := counts.holders
  have deleted := counts.deleted
  rw [if_pos positive] at deleted
  unfold World.afterRelease
  rw [entry]
  dsimp only
  by_cases more : 1 < f.holders
  · rw [if_pos more]
    have left : 0 < claims t - 1 := by omega
    refine h.set inside rfl rfl ?_ fun _ _ => rfl
    exact
      { path := counts.path
        holders := by dsimp only; omega
        present := iff_of_true (counts.present.mpr positive) left
        deleted := by rw [if_pos left]; exact deleted }
  · rw [if_neg more, if_pos deleted]
    have gone : claims t - 1 = 0 := by omega
    refine h.set inside rfl rfl ?_ fun t' other => ?_
    · exact
        { path := counts.path
          holders := by dsimp only; omega
          present := by simp [gone]
          deleted := by rw [gone, deleted]; rfl }
    · rw [counts.path]
      exact Function.update_of_ne (fun same => other (FilePath.temp.inj same)) _ _

/-- A spill makes one more temp file, with one claim. -/
theorem spilled (h : w.Accounted claims) (content : Bytes) :
    (w.spilled content).Accounted (Function.update claims w.temps.length 1) where
  count := by simp [World.spilled, h.count]
  counts := by
    intro t f entry
    unfold World.spilled at entry ⊢
    rcases Nat.lt_trichotomy t w.temps.length with below | rfl | above
    · rw [List.getElem?_append_left below] at entry
      rw [Function.update_of_ne (Nat.ne_of_lt below)]
      have old := h.counts t f entry
      have other : FilePath.temp t ≠ .temp w.nextTemp := by
        rw [h.count]
        exact fun same => Nat.ne_of_lt below (FilePath.temp.inj same)
      refine ⟨old.path, old.holders, ?_, old.deleted⟩
      dsimp only
      rw [old.path, Function.update_of_ne other, ← old.path]
      exact old.present
    · rw [List.getElem?_concat_length] at entry
      cases entry
      rw [Function.update_self, h.count]
      refine ⟨rfl, rfl, ?_, rfl⟩
      simp
    · rw [List.getElem?_eq_none (by simp; omega)] at entry
      cases entry
  bounded := by
    intro t positive
    rw [World.spilled, List.length_append, List.length_singleton]
    by_cases this : t = w.temps.length
    · omega
    · rw [Function.update_of_ne this] at positive
      exact Nat.lt_succ_of_lt (h.bounded t positive)

end World.Accounted

/-! ## The claims of an archive and its streams -/

/-- An open stream claims the file its callback releases. -/
def PipeStream.claims (p : PipeStream) (t : Nat) : Bool := !p.closed && p.onClose == some t

/-- The archive's own claim and those of the open streams. -/
def claimsOf (tempfile : Option Nat) (streams : List PipeStream) (t : Nat) : Nat :=
  (if tempfile = some t then 1 else 0) + streams.countP (·.claims t)

theorem claimsOf_pos (t : Nat) (streams : List PipeStream) : 0 < claimsOf (some t) streams t := by
  rw [claimsOf, if_pos rfl]
  exact Nat.add_pos_left Nat.one_pos _

/-- A new stream takes over the claim made for it. -/
theorem claimsOf_newStream (tempfile : Option Nat) (streams : List PipeStream) {p : PipeStream}
    (open' : p.closed = false) {t : Nat} (claim : p.onClose = some t) :
    claimsOf tempfile (streams ++ [p]) =
      Function.update (claimsOf tempfile streams) t (claimsOf tempfile streams t + 1) := by
  funext t'
  unfold claimsOf
  rw [List.countP_append, List.countP_singleton]
  by_cases this : t' = t
  · subst this
    simp [PipeStream.claims, open', claim, Nat.add_assoc]
  · have other : p.claims t' = false := by simp [PipeStream.claims, claim, Ne.symm this]
    rw [other, Function.update_of_ne this]
    rfl

theorem claimsOf_unclaimed (tempfile : Option Nat) (streams : List PipeStream) {p : PipeStream}
    (claim : p.onClose = none) :
    claimsOf tempfile (streams ++ [p]) = claimsOf tempfile streams := by
  funext t
  simp [claimsOf, PipeStream.claims, claim]

/-- Closing an open stream gives up its claim. -/
theorem claimsOf_closed (tempfile : Option Nat) {streams : List PipeStream} {k : Nat}
    {p : PipeStream} (entry : streams[k]? = some p) (open' : p.closed = false) (t : Nat) :
    claimsOf tempfile (streams.modify k ({ · with closed := true })) t =
      if p.onClose = some t then claimsOf tempfile streams t - 1
      else claimsOf tempfile streams t := by
  obtain ⟨inside, rfl⟩ := List.getElem?_eq_some_iff.mp entry
  have modified : streams.modify k ({ · with closed := true }) =
      streams.set k { streams[k] with closed := true } := by
    rw [List.modify_eq_set_getElem?, entry]
    rfl
  unfold claimsOf
  rw [modified, List.countP_set inside]
  have now : PipeStream.claims { streams[k] with closed := true } t = false := rfl
  rw [now]
  by_cases claim : streams[k].onClose = some t
  · have before : streams[k].claims t = true := by simp [PipeStream.claims, open', claim]
    have some : 0 < streams.countP (·.claims t) :=
      List.countP_pos_iff.mpr ⟨streams[k], List.getElem_mem inside, before⟩
    rw [before, if_pos claim]
    simp only [if_true, Bool.false_eq_true, if_false, Nat.add_zero]
    omega
  · have before : streams[k].claims t = false := by simp [PipeStream.claims, claim]
    rw [before, if_neg claim]
    simp

theorem claimsOf_stream_pos (tempfile : Option Nat) {streams : List PipeStream} {k : Nat}
    {p : PipeStream} (entry : streams[k]? = some p) (open' : p.closed = false) {t : Nat}
    (claim : p.onClose = some t) : 0 < claimsOf tempfile streams t := by
  have before : p.claims t = true := by simp [PipeStream.claims, open', claim]
  have some : 0 < streams.countP (·.claims t) :=
    List.countP_pos_iff.mpr ⟨p, List.mem_of_getElem? entry, before⟩
  exact Nat.add_pos_right _ some

/-- The archive's own claim is given up. -/
theorem claimsOf_dropped (t : Nat) (streams : List PipeStream) :
    claimsOf none streams =
      Function.update (claimsOf (some t) streams) t (claimsOf (some t) streams t - 1) := by
  funext t'
  unfold claimsOf
  by_cases this : t' = t
  · subst this
    simp
  · rw [Function.update_of_ne this]
    have other : ¬ some t = some t' := fun same => this (Option.some.inj same).symm
    simp [other]

/-- A spilled file that nobody claimed before becomes the archive's. -/
theorem claimsOf_spilled {w : World} (h : w.Accounted (claimsOf none w.streams)) :
    claimsOf (some w.temps.length) w.streams =
      Function.update (claimsOf none w.streams) w.temps.length 1 := by
  have unclaimed : claimsOf none w.streams w.temps.length = 0 := by
    refine Nat.eq_zero_of_not_pos fun positive => ?_
    exact Nat.lt_irrefl _ (h.bounded _ positive)
  funext t
  by_cases this : t = w.temps.length
  · subst this
    unfold claimsOf at unclaimed ⊢
    rw [Function.update_self, if_pos rfl]
    rw [if_neg nofun] at unclaimed
    omega
  · rw [Function.update_of_ne this]
    have other : ¬ some w.temps.length = some t := fun same => this (Option.some.inj same).symm
    simp [claimsOf, other]

/-! ## Streams -/

variable {w : World} {tempfile : Option Nat}

/-- Opening a pipe, whether it succeeds or fails, leaves the claims accounted. -/
theorem openPipe_accounted (h : w.Accounted (claimsOf tempfile w.streams)) {x : Py World Bytes}
    (quiet : ∀ w : World, w.Quiet (x w).2) (size : Option Int) :
    (openPipe tempfile x size w).2.Accounted
      (claimsOf tempfile (openPipe tempfile x size w).2.streams) := by
  cases tempfile with
  | none =>
      have still := h.quiet (quiet w)
      have streams := (quiet w).streams
      have held : holdClaim none w = (.ok (), w) := rfl
      rcases run : x w with ⟨exc | data, w'⟩ <;> rw [run] at still streams
      · rw [openPipe_error held run (show releaseClaim none w' = (.ok (), w') from rfl)]
        dsimp only at streams ⊢
        rw [streams]
        exact still
      · rw [openPipe_ok held run]
        dsimp only at streams ⊢
        rw [claimsOf_unclaimed none _ rfl, streams]
        exact still.withStreams _
  | some t =>
      have positive := claimsOf_pos t w.streams
      let w₁ := w.modifyTemp t fun f => { f with holders := f.holders + 1 }
      have held : holdClaim (some t) w = (.ok (), w₁) := rfl
      have still := (h.hold positive).quiet (quiet w₁)
      have streams : (x w₁).2.streams = w.streams := (quiet w₁).streams
      rcases run : x w₁ with ⟨exc | data, w'⟩ <;> rw [run] at still streams
      · rw [openPipe_error held run (TempFile.release_run t w')]
        have released := still.release (t := t) (by rw [Function.update_self]; omega)
        rw [Function.update_self, Nat.add_sub_cancel, Function.update_idem,
          Function.update_eq_self] at released
        dsimp only at streams ⊢
        rw [World.afterRelease_streams, streams]
        exact released
      · rw [openPipe_ok held run]
        dsimp only at streams ⊢
        rw [claimsOf_newStream (some t) _ rfl rfl, streams]
        exact still.withStreams _

/-- Closing a stream releases its claim, and only the first time. -/
theorem closeStream_accounted (h : w.Accounted (claimsOf tempfile w.streams)) (k : Nat) :
    (closeStream k none w).2.Accounted
      (claimsOf tempfile (closeStream k none w).2.streams) := by
  unfold closeStream
  rw [Exn.get_bind_apply]
  rcases entry : w.streams[k]? with _ | p
  · exact h
  · rcases open' : p.closed with _ | _
    · have closed (t : Nat) := claimsOf_closed tempfile entry open' t
      have marked := h.withStreams (w.streams.modify k ({ · with closed := true }))
      simp only [open', and_self, if_true, Exn.modify_bind_apply]
      rcases claim : p.onClose with _ | t
      · have same : claimsOf tempfile (w.streams.modify k ({ · with closed := true })) =
            claimsOf tempfile w.streams := by
          funext t
          rw [closed t, claim, if_neg nofun]
        rw [← same] at marked
        exact marked
      · have fewer : claimsOf tempfile (w.streams.modify k ({ · with closed := true })) =
            Function.update (claimsOf tempfile w.streams) t
              (claimsOf tempfile w.streams t - 1) := by
          funext t'
          rw [closed t', claim]
          by_cases this : t' = t
          · subst this
            rw [if_pos rfl, Function.update_self]
          · rw [if_neg fun same => this (Option.some.inj same).symm,
              Function.update_of_ne this]
        have released := marked.release (claimsOf_stream_pos tempfile entry open' claim)
        rw [← fewer] at released
        dsimp only
        rw [Exn.bind_of_ok (TempFile.release_run t _)]
        dsimp only [Exn.lift_apply]
        rw [World.afterRelease_streams]
        exact released
    · simp only [open', Bool.true_eq_false, false_and, if_false]
      exact h

/-! ## The archive -/

/-- Every `read` of a file object succeeds. -/
def Source.NeverRaises : Source → Prop
  | .stream file => ∀ reply ∈ file.replies, ∃ b, reply = .ok b
  | _ => True

theorem copyLoop_ok {replies : List (Except PyExc Bytes)}
    (never : ∀ reply ∈ replies, ∃ b, reply = .ok b) :
    (copyLoop replies).1 = .ok () ∧ ∀ reply ∈ (copyLoop replies).2.2, reply ∈ replies := by
  induction replies with
  | nil => exact ⟨rfl, fun reply => id⟩
  | cons reply replies ih =>
      obtain ⟨b, rfl⟩ := never reply List.mem_cons_self
      obtain ⟨complete, rest⟩ := ih fun reply later => never reply (List.mem_cons_of_mem _ later)
      cases b with
      | nil => exact ⟨rfl, fun reply unread => List.mem_cons_of_mem _ unread⟩
      | cons byte bytes =>
          exact ⟨complete, fun reply unread => List.mem_cons_of_mem _ (rest reply unread)⟩

theorem Source.NeverRaises.delivers {source : Source} (h : source.NeverRaises)
    (noPath : source.ownPath = none) : ∃ content, source.Delivers content := by
  cases source with
  | path arg => cases noPath
  | bytes content => exact ⟨content, rfl⟩
  | stream file => exact ⟨_, (copyLoop_ok h).1, rfl⟩

theorem Source.NeverRaises.afterCopy {source : Source} (h : source.NeverRaises) :
    source.afterCopy.NeverRaises := by
  cases source with
  | path arg => exact h
  | bytes content => exact h
  | stream file => exact fun reply unread => h reply ((copyLoop_ok h).2 reply unread)

namespace Archive

/-- The invariant of a session: the claims are accounted, the source can be
spilled, and a closed archive refers to no file. -/
structure Settled (s : Session) : Prop where
  accounted : s.world.Accounted (claimsOf s.self.tempfile s.world.streams)
  never : s.self.source.NeverRaises
  closed : s.self.closed = true → s.self.tempfile = none

variable {s : Session}

/-- What an archive caches is of no account. -/
theorem Settled.withSelf (h : Settled s) {self : Archive} (source : self.source = s.self.source)
    (tempfile : self.tempfile = s.self.tempfile) (closed : self.closed = s.self.closed) :
    Settled { s with self } where
  accounted := by dsimp only; rw [tempfile]; exact h.accounted
  never := by dsimp only; rw [source]; exact h.never
  closed := by dsimp only; rw [tempfile, closed]; exact h.closed

theorem Settled.quiet (h : Settled s) {w : World} (quiet : s.world.Quiet w) :
    Settled { s with world := w } where
  accounted := by
    dsimp only
    rw [quiet.streams]
    exact h.accounted.quiet quiet
  never := h.never
  closed := h.closed

theorem Settled.dropped (h : Settled s) : Settled (dropped s) := by
  unfold Archive.dropped
  rcases claimed : s.self.tempfile with _ | t
  · exact h
  · have accounted := h.accounted
    rw [claimed] at accounted
    have released := accounted.release (claimsOf_pos t s.world.streams)
    rw [← claimsOf_dropped] at released
    exact ⟨by dsimp only; rw [World.afterRelease_streams]; exact released, h.never, fun _ => rfl⟩

/-- Only an archive without a spilled file spills. -/
theorem Settled.spill (h : Settled s) (unclosed : s.self.closed = false)
    (noPath : s.self.source.ownPath = none) (dead : liveTempfile s = none) :
    Settled (Archive.spill s).2 ∧ (Archive.spill s).2.self.closed = false := by
  obtain ⟨content, delivers⟩ := h.never.delivers noPath
  have unspilled : s.self.tempfile = none := by
    rcases claimed : s.self.tempfile with _ | t
    · rfl
    · have accounted := h.accounted
      rw [claimed] at accounted
      have positive := claimsOf_pos t s.world.streams
      obtain ⟨f, entry, counts⟩ := accounted.claimed positive
      have present := counts.present.mpr positive
      simp [liveTempfile, claimed, entry, present] at dead
  have accounted := h.accounted
  rw [unspilled] at accounted
  rw [spill_run delivers]
  refine ⟨⟨?_, h.never.afterCopy, fun closed => ?_⟩, unclosed⟩
  · have more := accounted.spilled content
    rw [← claimsOf_spilled accounted] at more
    exact more
  · cases unclosed.symm.trans closed

theorem Settled.backingPath (h : Settled s) (unclosed : s.self.closed = false) :
    Settled (_backingPath s).2 ∧ (_backingPath s).2.self.closed = false := by
  rcases _backingPath_cases s with ⟨p, -, run⟩ | ⟨p, -, -, run⟩ | ⟨noPath, dead, run⟩
  · rw [run]
    exact ⟨h, unclosed⟩
  · rw [run]
    exact ⟨h, unclosed⟩
  · rw [run]
    exact h.spill unclosed noPath dead

theorem Settled.openAt (h : Settled s) (eng : Engine) (path : FilePath) :
    Settled (Archive.openAt eng path s).2 := by
  rw [openAt_run]
  have logged := h.quiet ((World.Quiet.refl s.world).logged
    { path, password := s.self.password, encoding := s.self.encoding, work := .open })
  dsimp only
  rcases eng.snapshot (s.world.files path) s.self.password s.self.encoding with
    (e | message) | o
  · exact logged.dropped
  · exact logged
  · exact logged.withSelf rfl rfl rfl

theorem _open_keeps (eng : Engine) : Exn.Keeps Settled (_open eng) := by
  intro s h
  unfold _open
  rw [Exn.get_bind_apply]
  rcases unclosed : s.self.closed with _ | _
  · rcases s.self.reader with _ | r
    · obtain ⟨settled, -⟩ := h.backingPath unclosed
      rcases back : _backingPath s with ⟨exc | path, s'⟩ <;> rw [back] at settled
      · rw [if_neg Bool.false_ne_true]
        dsimp only
        rw [Exn.bind_of_error back]
        exact settled
      · rw [if_neg Bool.false_ne_true]
        dsimp only
        rw [Exn.bind_of_ok back, Exn.get_bind_apply]
        have opened := settled.openAt eng path
        rcases s'.self.source.ownPath with _ | (own | n)
        · exact opened
        · rcases s'.world.files path with _ | content
          · exact settled
          · exact opened
        · exact opened
    · exact h
  · exact h

theorem _listing_keeps (eng : Engine) : Exn.Keeps Settled (_listing eng) := by
  intro s h
  unfold _listing
  rw [Exn.get_bind_apply]
  rcases s.self.entries with _ | entries
  · refine Exn.Keeps.bind (_open_keeps eng) (fun r => ?_) s h
    exact fun s h => h.withSelf rfl rfl rfl
  · exact h

/-- Every accessor call leaves the claims accounted, however it ends. -/
theorem settled_upheld (eng : Engine) : Upheld Settled eng where
  opens := _open_keeps eng
  lists := _listing_keeps eng
  asks := fun _ _ h quiet => h.quiet quiet
  pipes := fun _ _ size h quiet =>
    ⟨openPipe_accounted h.accounted quiet size, h.never, h.closed⟩

/-! ## Whole lives -/

/-- What can happen to an archive and the streams opened from it.  The engine of
each call is arbitrary, so every engine open may succeed or fail. -/
inductive Event
  | call (eng : Engine) (c : Call)
  | setPassword (password : Option String)
  | closeStream (k : Nat)
  | close

/-- One event; its outcome is not looked at. -/
def live : Machine Session Event Unit
  | s, .call eng c => ((), (call eng c s).2)
  | s, .setPassword password => ((), (setPassword password s).2)
  | s, .closeStream k => ((), (onWorld (NewtuaPy.closeStream k none) s).2)
  | s, .close => ((), (close s).2)

theorem close_keeps : Exn.Keeps Settled close := by
  intro s h
  rw [close_run]
  have accounted := h.accounted
  have dropped := h.dropped.accounted
  unfold Archive.dropped at dropped ⊢
  unfold shut
  dsimp only
  rcases claimed : s.self.tempfile with _ | t
  · rw [claimed] at accounted
    exact ⟨accounted, h.never, fun _ => rfl⟩
  · rw [claimed] at dropped
    exact ⟨dropped, h.never, fun _ => rfl⟩

theorem init_settled (files : FilePath → Option Bytes) {source : Source}
    (never : source.NeverRaises) (password encoding : Option String) :
    Settled (init files source password encoding) where
  accounted := by
    refine ⟨rfl, fun t f entry => ?_, fun t positive => ?_⟩
    · cases entry
    · simp [claimsOf, init] at positive
  never := never
  closed := nofun

/-- Step lemma: every event leaves the claims accounted. -/
theorem live_settled (s : Session) (event : Event) (h : Settled s) :
    Settled (live s event).2 := by
  cases event with
  | call eng c => exact (settled_upheld eng).call c s h
  | setPassword password => exact h.withSelf rfl rfl rfl
  | closeStream k => exact ⟨closeStream_accounted h.accounted k, h.never, h.closed⟩
  | close => exact close_keeps s h

/-- Claim counting: in every state that accessor calls, password assignments and
closes of the archive and of its streams lead to, each `_TempFile` counts the
archive's claim and those of the open streams, its file is on disk exactly while
the count is positive, and it is deleted at most once.  With everything closed,
no spilled file is left. -/
theorem tempfiles_accounted (files : FilePath → Option Bytes) (source : Source)
    (never : source.NeverRaises) (password encoding : Option String) (events : List Event) :
    let s := live.runState (init files source password encoding) events
    (∀ (t : Nat) (f : TempFile), s.world.temps[t]? = some f →
        f.holders = ((if s.self.tempfile = some t then 1 else 0) +
          s.world.streams.countP (fun p => !p.closed && p.onClose == some t) : Nat) ∧
        0 ≤ f.holders ∧
        ((s.world.files f.path).isSome = true ↔ 0 < f.holders) ∧
        f.deleteCalls ≤ 1) ∧
      (s.self.closed = true → (∀ p ∈ s.world.streams, p.closed = true) →
        ∀ n < s.world.nextTemp, s.world.files (.temp n) = none) := by
  intro s
  have settled : Settled s :=
    Machine.runState_invariant live_settled (init_settled files never password encoding) events
  have accounted := settled.accounted
  constructor
  · intro t f entry
    have counts := accounted.counts t f entry
    have holders : f.holders = (claimsOf s.self.tempfile s.world.streams t : Nat) := counts.holders
    refine ⟨?_, ?_, ?_, ?_⟩
    · exact holders
    · omega
    · rw [counts.present]
      omega
    · rw [counts.deleted]
      split <;> omega
  · intro closed allClosed n made
    have unclaimed : claimsOf s.self.tempfile s.world.streams n = 0 := by
      have none : s.world.streams.countP (·.claims n) = 0 := by
        refine List.countP_eq_zero.mpr fun p member => ?_
        simp [PipeStream.claims, allClosed p member]
      rw [settled.closed closed, claimsOf, none]
      rfl
    rw [accounted.count] at made
    have counts := accounted.counts n _ (List.getElem?_eq_getElem made)
    have absent := mt counts.present.mp (by rw [unclaimed]; exact Nat.lt_irrefl 0)
    rw [counts.path] at absent
    exact Option.not_isSome_iff_eq_none.mp absent

/-- A file object is spilled, a stream outlives the archive, and its close
deletes the file. -/
theorem tempfiles_accounted_stream_outlives_archive :
    (live.runState (init (fun _ => none) bytesIO none none)
      [.call (oneEntry 8 intact) (.openStream (.int 0)), .close, .closeStream 0]).world.files
        (.temp 0) = none :=
  (tempfiles_accounted (fun _ => none) bytesIO (by simp [ bytesIO, Source.NeverRaises]) none none
    [.call (oneEntry 8 intact) (.openStream (.int 0)), .close, .closeStream 0]).2
    (by decide) (by decide) 0 (by decide)

end Archive

end NewtuaPy
