import NewtuaPy.View

/-!
# The owner of an entry

Entries are compared without their owner, and nothing that is looked up or
handed over depends on it.  A view and the view with entries that nobody owns
give the same answers, up to that comparison.
-/

namespace NewtuaPy

namespace Archive

/-- Two values are the same, entries being compared by `Entry.__eq__`. -/
def Value.Alike : Value → Value → Prop
  | .entry e, .entry e' => e.pyEq e' = true
  | .entries es, .entries es' => List.Forall₂ (fun e e' => e.pyEq e' = true) es es'
  | v, v' => v = v'

theorem Value.Alike.refl (v : Value) : v.Alike v := by
  cases v with
  | entry e => exact (Entry.pyEq_iff e e).mpr rfl
  | entries es => exact List.forall₂_same.mpr fun e _ => (Entry.pyEq_iff e e).mpr rfl
  | _ => rfl

end Archive

open Archive (Value)

/-- Both outcomes are values related by `R`, or the same exception. -/
def SameOutcome {α β : Type} (R : α → β → Prop) : Except PyExc α → Except PyExc β → Prop
  | .ok a, .ok b => R a b
  | .error exc, .error exc' => exc = exc'
  | _, _ => False

section Infos

variable {es es' : List Entry} (h : es.map Entry.toEntryInfo = es'.map Entry.toEntryInfo)

include h

theorem pyEq_of_infos : List.Forall₂ (fun e e' => e.pyEq e' = true) es es' := by
  have equal := (List.forall₂_eq_eq_eq (α := EntryInfo)).symm ▸ h
  refine (List.forall₂_map_left_iff.mp (List.forall₂_map_right_iff.mp equal)).imp ?_
  intro e e' same
  exact (Entry.pyEq_iff e e').mpr same

theorem length_of_infos : es.length = es'.length := by
  simpa using congrArg List.length h

theorem getElem?_of_infos (i : Nat) :
    es[i]?.map Entry.toEntryInfo = es'[i]?.map Entry.toEntryInfo := by
  rw [← List.getElem?_map, h, List.getElem?_map]

theorem find_of_infos (p : PurePosixPath) :
    (es.find? fun e => e.path = p).map Entry.toEntryInfo =
      (es'.find? fun e => e.path = p).map Entry.toEntryInfo := by
  have found : ∀ l : List Entry, (l.find? fun e => e.path = p).map Entry.toEntryInfo =
      (l.map Entry.toEntryInfo).find? fun e => e.path = p := by
    intro l
    rw [List.find?_map]
    rfl
  rw [found, found, h]

theorem any_of_infos {f : Entry → Bool} (g : EntryInfo → Bool) (same : ∀ e, f e = g e.toEntryInfo) :
    es.any f = es'.any f := by
  have mapped : ∀ l : List Entry, l.any f = (l.map Entry.toEntryInfo).any g := by
    intro l
    rw [List.any_map]
    exact congrArg _ (funext same)
  rw [mapped, mapped, h]

end Infos

theorem sameOutcome_of_map {α β γ : Type} {f : α → γ} {g : β → γ} {x : Except PyExc α}
    {y : Except PyExc β} (h : x.map f = y.map g) : SameOutcome (fun a b => f a = g b) x y := by
  rcases x with exc | a <;> rcases y with exc' | b
  · exact Except.error.inj h
  · exact nomatch h
  · exact nomatch h
  · exact Except.ok.inj h

theorem SameOutcome.map {α β γ δ : Type} {R : α → β → Prop} {S : γ → δ → Prop} {f : α → γ}
    {g : β → δ} {x : Except PyExc α} {y : Except PyExc β} (h : SameOutcome R x y)
    (related : ∀ a b, R a b → S (f a) (g b)) : SameOutcome S (x.map f) (y.map g) := by
  rcases x with exc | a <;> rcases y with exc' | b
  · exact h
  · exact h
  · exact h
  · exact related a b h

/-- Options of entries that differ in the owner only. -/
theorem infos_cases {a b : Option Entry}
    (h : a.map Entry.toEntryInfo = b.map Entry.toEntryInfo) :
    (a = none ∧ b = none) ∨
      ∃ e e', a = some e ∧ b = some e' ∧ e.toEntryInfo = e'.toEntryInfo := by
  rcases a with _ | e <;> rcases b with _ | e'
  · exact Or.inl ⟨rfl, rfl⟩
  · exact nomatch h
  · exact nomatch h
  · exact Or.inr ⟨e, e', rfl, rfl, Option.some.inj h⟩

theorem tupleItem_of_infos {es es' : List Entry}
    (h : es.map Entry.toEntryInfo = es'.map Entry.toEntryInfo) (i : Int) :
    (tupleItem es i).map Entry.toEntryInfo = (tupleItem es' i).map Entry.toEntryInfo := by
  unfold tupleItem
  rw [length_of_infos h]
  dsimp only
  generalize (if i < 0 then i + (es'.length : Int) else i) = j
  by_cases low : 0 ≤ j
  · rw [if_pos low, if_pos low]
    rcases infos_cases (getElem?_of_infos h j.toNat) with
      ⟨left, right⟩ | ⟨e, e', left, right, same⟩
    · rw [left, right]
    · rw [left, right]
      exact congrArg Except.ok same
  · rw [if_neg low, if_neg low]

theorem itemByName_of_infos {es es' : List Entry}
    (h : es.map Entry.toEntryInfo = es'.map Entry.toEntryInfo) (p : PurePosixPath)
    (text : String) :
    (Archive.itemByName (nameIndex es) p text).map Entry.toEntryInfo =
      (Archive.itemByName (nameIndex es') p text).map Entry.toEntryInfo := by
  unfold Archive.itemByName
  rw [nameIndex_lookup, nameIndex_lookup]
  rcases infos_cases (find_of_infos h p) with ⟨left, right⟩ | ⟨e, e', left, right, same⟩
  · rw [left, right]
  · rw [left, right]
    exact congrArg Except.ok same

theorem tupleSlice_of_infos {es es' : List Entry}
    (h : es.map Entry.toEntryInfo = es'.map Entry.toEntryInfo) (slice : PySlice) :
    (tupleSlice es slice).map (List.map Entry.toEntryInfo) =
      (tupleSlice es' slice).map (List.map Entry.toEntryInfo) := by
  unfold tupleSlice
  rw [length_of_infos h]
  rcases slice.positions es'.length with exc | positions
  · rfl
  · refine congrArg Except.ok ?_
    simp only [List.map_filterMap, getElem?_of_infos h]

/-- `archive[key]` is the same, whoever owns the entries. -/
theorem item_of_infos {es es' : List Entry}
    (h : es.map Entry.toEntryInfo = es'.map Entry.toEntryInfo) (key : Archive.Key) :
    SameOutcome Value.Alike (View.item es key) (View.item es' key) := by
  have one (e e' : Entry) (same : e.toEntryInfo = e'.toEntryInfo) :
      (Value.entry e).Alike (.entry e') := (Entry.pyEq_iff e e').mpr same
  cases key with
  | slice slice =>
      exact (sameOutcome_of_map (tupleSlice_of_infos h slice)).map fun _ _ => pyEq_of_infos
  | int i => exact (sameOutcome_of_map (tupleItem_of_infos h i)).map one
  | name text => exact (sameOutcome_of_map (itemByName_of_infos h _ text)).map one
  | path path => exact (sameOutcome_of_map (itemByName_of_infos h path path.str)).map one

theorem member_of_infos {es es' : List Entry}
    (h : es.map Entry.toEntryInfo = es'.map Entry.toEntryInfo) (key : Archive.Member) :
    View.member es key = View.member es' key := by
  have named : ∀ p, ((nameIndex es).lookup p).isSome = ((nameIndex es').lookup p).isSome := by
    intro p
    rw [nameIndex_lookup, nameIndex_lookup]
    simpa using congrArg Option.isSome (find_of_infos h p)
  cases key with
  | entry e => exact any_of_infos h (fun info => decide (e.toEntryInfo = info)) fun e' => rfl
  | name text => exact named _
  | path path => exact named _
  | other => rfl

/-! ## The view without an owner -/

namespace View

/-- The view whose entries refer to no archive. -/
def disown (V : View) : View := { V with owned := false }

variable (V : View)

theorem entries_disown (o : Opened) :
    (V.entries o).map Entry.toEntryInfo = (V.disown.entries o).map Entry.toEntryInfo :=
  entriesFromRaw_infos o.entries V.owned false

/-- Two answers agree by `R` and hand over the same work. -/
abbrev SameAnswer {α β : Type} (x : Answer α) (y : Answer β) (R : α → β → Prop) : Prop :=
  Exn.Sim (· = ·) x y (fun a b s t => R a b ∧ s = t) (· = ·)

variable {V}

theorem SameAnswer.refl {α : Type} (x : Answer α) : SameAnswer x x (· = ·) := by
  intro s _ same
  obtain rfl := same
  rcases x s with ⟨exc | a, t⟩ <;> exact ⟨rfl, rfl⟩

theorem SameAnswer.bind {α β γ δ : Type} {x : Answer α} {y : Answer β} {f : α → Answer γ}
    {g : β → Answer δ} {R : α → β → Prop} {S : γ → δ → Prop} (first : SameAnswer x y R)
    (rest : ∀ a b, R a b → SameAnswer (f a) (g b) S) : SameAnswer (x >>= f) (y >>= g) S := by
  refine Exn.Sim.bind first ?_
  intro a b s t post
  obtain ⟨related, same⟩ := post
  exact rest a b related s t same

theorem SameAnswer.pure {α β : Type} {a : α} {b : β} {R : α → β → Prop} (h : R a b) :
    SameAnswer (Pure.pure a) (Pure.pure b) R :=
  Exn.Sim.pure fun _ _ same => ⟨h, same⟩

theorem SameAnswer.lift {α β : Type} {a : Except PyExc α} {b : Except PyExc β} {R : α → β → Prop}
    (h : SameOutcome R a b) : SameAnswer (Exn.lift a) (Exn.lift b) R := by
  intro s _ same
  obtain rfl := same
  rcases a with exc | a <;> rcases b with exc' | b
  · exact ⟨h, rfl⟩
  · exact h.elim
  · exact h.elim
  · exact ⟨h, rfl⟩

theorem listing_disown :
    SameAnswer V.listing V.disown.listing
      (fun es es' => es.map Entry.toEntryInfo = es'.map Entry.toEntryInfo) := by
  refine SameAnswer.bind (SameAnswer.refl V.reader) ?_
  intro o _ same
  obtain rfl := same
  exact SameAnswer.pure (V.entries_disown o)

theorem indexOf_disown (ref : Ref) :
    SameAnswer (V.indexOf ref) (V.disown.indexOf ref) (· = ·) := by
  refine listing_disown.bind fun es es' infos => ?_
  rw [resolveIndex_infos infos ref]
  exact SameAnswer.refl _

theorem contains_disown (key : Archive.Member) :
    SameAnswer (V.contains key) (V.disown.contains key) (· = ·) := by
  have listed : SameAnswer
      (do
        let entries ← V.listing
        Pure.pure (member entries key))
      (do
        let entries ← V.disown.listing
        Pure.pure (member entries key)) (· = ·) :=
    listing_disown.bind fun es es' infos => SameAnswer.pure (member_of_infos infos key)
  cases key with
  | other => exact SameAnswer.pure rfl
  | entry e => exact listed
  | name text => exact listed
  | path path => exact listed

theorem needsPassword_disown :
    SameAnswer V.needsPassword V.disown.needsPassword (· = ·) := by
  refine Exn.Sim.handle (F := (· = ·)) ?_ ?_
  · refine listing_disown.bind fun es es' infos => SameAnswer.pure ?_
    exact any_of_infos infos (fun info => info.isEncrypted) fun e => rfl
  · intro exc
    split
    · exact SameAnswer.pure rfl
    · exact Exn.Sim.raise fun _ _ same => same

theorem fetch_disown (work : Nat → Work) (ref : Ref) :
    SameAnswer (V.fetch work ref) (V.disown.fetch work ref) (· = ·) := by
  refine SameAnswer.bind (SameAnswer.refl V.reader) ?_
  intro o _ same
  obtain rfl := same
  refine (indexOf_disown ref).bind ?_
  intro index _ same
  obtain rfl := same
  exact SameAnswer.refl (V.decode o work index)

theorem stream_disown (ref : Ref) :
    SameAnswer (V.stream ref) (V.disown.stream ref) (· = ·) := by
  refine SameAnswer.bind (SameAnswer.refl V.reader) ?_
  intro o _ same
  obtain rfl := same
  refine (indexOf_disown ref).bind ?_
  intro index _ same
  obtain rfl := same
  refine listing_disown.bind fun es es' infos => ?_
  refine SameAnswer.bind (R := fun e e' => e.toEntryInfo = e'.toEntryInfo)
    (SameAnswer.lift (sameOutcome_of_map (tupleItem_of_infos infos index))) fun e e' same => ?_
  refine SameAnswer.bind (SameAnswer.refl (V.pipe o index)) ?_
  intro data _ same
  obtain rfl := same
  exact SameAnswer.pure (congrArg (fun info => (data, info.size)) same)

theorem extract_disown (request : Archive.ExtractRequest) :
    SameAnswer (V.extract request) (V.disown.extract request) (· = ·) := by
  refine SameAnswer.bind (SameAnswer.refl V.reader) ?_
  intro o _ same
  obtain rfl := same
  have selection : select (V.entries o) request.selection =
      select (V.disown.entries o) request.selection := by
    unfold select
    rw [funext (resolveIndex_infos (V.entries_disown o))]
  rw [selection]
  exact SameAnswer.refl _

/-- Every call has the same answer, whoever owns the entries. -/
theorem call_disown (c : Archive.Call) :
    SameAnswer (V.call c) (V.disown.call c) Value.Alike := by
  have packed {α : Type} {x y : Answer α} (f : α → Value) (h : SameAnswer x y (· = ·)) :
      SameAnswer (x >>= fun a => Pure.pure (f a)) (y >>= fun a => Pure.pure (f a))
        Value.Alike := by
    refine h.bind ?_
    intro a _ same
    obtain rfl := same
    exact SameAnswer.pure (Value.Alike.refl _)
  cases c with
  | len =>
      refine listing_disown.bind fun es es' infos => SameAnswer.pure ?_
      exact congrArg Value.nat (length_of_infos infos)
  | iter => exact listing_disown.bind fun es es' infos => SameAnswer.pure (pyEq_of_infos infos)
  | getitem key =>
      exact listing_disown.bind fun es es' infos => SameAnswer.lift (item_of_infos infos key)
  | contains key => exact packed _ (contains_disown key)
  | format => exact packed _ (SameAnswer.refl V.format)
  | detectedEncoding => exact packed _ (SameAnswer.refl V.detectedEncoding)
  | needsPassword => exact packed _ needsPassword_disown
  | read ref => exact packed _ (fetch_disown .read ref)
  | openBuffered ref => exact packed _ (fetch_disown .write ref)
  | openStream ref => exact packed _ (stream_disown ref)
  | extract request => exact packed _ (extract_disown request)

end View

end NewtuaPy
