import Mathlib.Data.List.Basic

/-!
# Reading a supply to its end

A supply hands out the elements of a list, some at a time, and says that there are none left
by handing out none, or raises.  Two loops read it to the end: `drain` asks until it is given
nothing, and `gather` puts together what it is given up to an element at which a line stops.
Loops are bounded by fuel; `none` stands for a loop that has run out of it.
-/

namespace Supply

variable {ε σ α : Type}

/-- One request to a supply: what it hands out, or raises, and the state it leaves. -/
abbrev Step (ε σ α : Type) : Type := σ → Option (Except ε (List α) × σ)

/-- Ask until given nothing: the parts, and what was raised in place of the end. -/
def drain (read : Step ε σ α) : Nat → σ → Option ((List (List α) × Option ε) × σ)
  | 0, _ => none
  | fuel + 1, s =>
      match read s with
      | none => none
      | some (.error e, t) => some (([], some e), t)
      | some (.ok [], t) => some (([], none), t)
      | some (.ok (a :: part), t) =>
          (drain read fuel t).map fun p => (((a :: part) :: p.1.1, p.1.2), p.2)

/-- Ask until a line is complete; `line` is what there is of it. -/
def gather (read : Step ε σ α) (stop : α → Bool) : Nat → List α → Step ε σ α
  | 0, _, _ => none
  | fuel + 1, line, s =>
      match read s with
      | none => none
      | some (.error e, t) => some (.error e, t)
      | some (.ok [], t) => some (.ok line, t)
      | some (.ok (a :: part), t) =>
          let line := line ++ a :: part
          if line.getLast?.any stop then some (.ok line, t) else gather read stop fuel line t

theorem drain_part {read : Step ε σ α} {s t : σ} {part : List α}
    (given : read s = some (.ok part, t)) (some' : part ≠ []) (fuel : Nat) :
    drain read (fuel + 1) s =
      (drain read fuel t).map fun p => ((part :: p.1.1, p.1.2), p.2) := by
  obtain ⟨a, part, rfl⟩ := List.exists_cons_of_ne_nil some'
  rw [drain, given]

theorem gather_part {read : Step ε σ α} {stop : α → Bool} {s t : σ} {part : List α}
    (given : read s = some (.ok part, t)) (some' : part ≠ []) (fuel : Nat) (line : List α) :
    gather read stop (fuel + 1) line s =
      if (line ++ part).getLast?.any stop then some (.ok (line ++ part), t)
      else gather read stop fuel (line ++ part) t := by
  obtain ⟨a, part, rfl⟩ := List.exists_cons_of_ne_nil some'
  rw [gather, given]

/-- The supply hands out `data`, at most `size` elements at a time, and then gives `last`;
`place n` is its state after `n` elements. -/
structure Hands (read : Step ε σ α) (place : Nat → σ) (data : List α) (size : Nat)
    (last : Except ε (List α)) : Prop where
  positive : 0 < size
  part : ∀ n < data.length, read (place n) =
    some (.ok ((data.drop n).take size), place (n + ((data.drop n).take size).length))
  ends : read (place data.length) = some (last, place data.length)
  nothing : ∀ part, last = .ok part → part = []

/-- What is raised at the end. -/
def raised : Except ε (List α) → Option ε
  | .error e => some e
  | .ok _ => none

variable {read : Step ε σ α} {place : Nat → σ} {data : List α} {size : Nat}
  {last : Except ε (List α)}

/-- What a loop is given at the end. -/
theorem Hands.at_end (hands : Hands read place data size last) :
    (∃ e, last = .error e ∧ read (place data.length) = some (.error e, place data.length)) ∨
      last = .ok [] ∧ read (place data.length) = some (.ok [], place data.length) := by
  have asked := hands.ends
  rcases last with e | part
  · exact Or.inl ⟨e, rfl, asked⟩
  · obtain rfl := hands.nothing part rfl
    exact Or.inr ⟨rfl, asked⟩

/-! ## Parts -/

/-- `parts` are the elements of `data`, `size` at a time, the last part being what is left. -/
structure Parts (data : List α) (size : Nat) (parts : List (List α)) : Prop where
  whole : parts.flatten = data
  full : ∀ part ∈ parts.dropLast, part.length = size
  sized : ∀ part ∈ parts, part ≠ [] ∧ part.length ≤ size

theorem Parts.nil (size : Nat) : Parts ([] : List α) size [] where
  whole := rfl
  full := nofun
  sized := nofun

theorem Parts.cons {rest : List α} {parts : List (List α)} (positive : 0 < size)
    (more : rest ≠ []) (cut : Parts (rest.drop size) size parts) :
    Parts rest size (rest.take size :: parts) where
  whole := by
    rw [List.flatten_cons, cut.whole, List.take_append_drop]
  full := by
    intro part member
    rcases parts with _ | ⟨second, parts⟩
    · cases member
    · rcases List.mem_cons.mp member with rfl | later
      · -- There is a second part, so the first one is full.
        have left : rest.drop size ≠ [] := by
          intro none
          have whole := cut.whole
          rw [none, List.flatten_cons] at whole
          exact (cut.sized second List.mem_cons_self).1 (List.append_eq_nil_iff.mp whole).1
        have long := List.length_pos_iff.mpr left
        rw [List.length_drop] at long
        rw [List.length_take]
        omega
      · exact cut.full part later
  sized := by
    intro part member
    rcases List.mem_cons.mp member with rfl | later
    · have length := List.length_pos_iff.mpr more
      have taken : (rest.take size).length = min size rest.length := List.length_take
      exact ⟨List.ne_nil_of_length_pos (by omega), by omega⟩
    · exact cut.sized part later

theorem drop_length_take (l : List α) (k : Nat) : l.drop (l.take k).length = l.drop k := by
  rcases Nat.le_total k l.length with le | le
  · rw [List.length_take_of_le le]
  · rw [List.take_of_length_le le, List.drop_length, List.drop_of_length_le le]

/-- Draining hands over all there is, in parts that are full up to the last one, and ends as
the supply does. -/
theorem Hands.drain (hands : Hands read place data size last) {n fuel : Nat}
    (inside : n ≤ data.length) (enough : data.length - n < fuel) :
    ∃ parts, Parts (data.drop n) size parts ∧
      drain read fuel (place n) = some ((parts, raised last), place data.length) := by
  induction fuel generalizing n with
  | zero => exact absurd enough (Nat.not_lt_zero _)
  | succ fuel ih =>
      rcases Nat.eq_or_lt_of_le inside with rfl | more
      · rw [List.drop_length]
        refine ⟨[], .nil size, ?_⟩
        unfold Supply.drain
        rcases hands.at_end with ⟨e, rfl, asked⟩ | ⟨rfl, asked⟩
        · rw [asked]
          rfl
        · rw [asked]
          rfl
      · have left : data.drop n ≠ [] := List.ne_nil_of_length_pos (by
          rw [List.length_drop]
          omega)
        have length : ((data.drop n).take size).length = min size (data.length - n) := by
          rw [List.length_take, List.length_drop]
        have positive := hands.positive
        obtain ⟨parts, cut, drained⟩ :=
          ih (n := n + ((data.drop n).take size).length) (by omega) (by omega)
        rw [← List.drop_drop, drop_length_take] at cut
        refine ⟨_, .cons positive left cut, ?_⟩
        have handed : (data.drop n).take size ≠ [] := List.ne_nil_of_length_pos (by omega)
        rw [drain_part (hands.part n more) handed, drained]
        rfl

/-! ## Lines -/

variable {stop : α → Bool}

/-- The elements, cut after each one at which a line stops. -/
def splitLines (stop : α → Bool) : List α → List (List α)
  | [] => []
  | a :: rest =>
      if stop a then [a] :: splitLines stop rest
      else match splitLines stop rest with
        | [] => [[a]]
        | line :: lines => (a :: line) :: lines

/-- The lines that are complete. -/
def terminated (stop : α → Bool) (lines : List (List α)) : List (List α) :=
  lines.filter fun line => line.getLast?.any stop

theorem splitLines_rest {line : List α} (open' : ∀ a ∈ line, stop a = false) (some' : line ≠ []) :
    splitLines stop line = [line] := by
  induction line with
  | nil => exact absurd rfl some'
  | cons a rest ih =>
      obtain ⟨goes, open'⟩ := List.forall_mem_cons.mp open'
      unfold splitLines
      rw [goes]
      rcases rest with _ | ⟨b, rest⟩
      · rfl
      · rw [ih open' (List.cons_ne_nil b rest)]
        rfl

theorem splitLines_line {line : List α} {b : α} (open' : ∀ a ∈ line, stop a = false)
    (stops : stop b = true) (rest : List α) :
    splitLines stop (line ++ b :: rest) = (line ++ [b]) :: splitLines stop rest := by
  induction line with
  | nil => exact if_pos stops
  | cons a line ih =>
      obtain ⟨goes, open'⟩ := List.forall_mem_cons.mp open'
      rw [List.cons_append, splitLines, goes, ih open']
      rfl

/-- Either no line stops any more, or there is a first place where one does. -/
theorem stop_cases (stop : α → Bool) (data : List α) :
    (∀ a ∈ data, stop a = false) ∨
      ∃ line b rest, data = line ++ b :: rest ∧ (∀ a ∈ line, stop a = false) ∧ stop b = true := by
  induction data with
  | nil => exact Or.inl nofun
  | cons a data ih =>
      rcases stops : stop a with _ | _
      · rcases ih with none | ⟨line, b, rest, rfl, open', stops'⟩
        · exact Or.inl (List.forall_mem_cons.mpr ⟨stops, none⟩)
        · exact Or.inr ⟨a :: line, b, rest, rfl, List.forall_mem_cons.mpr ⟨stops, open'⟩, stops'⟩
      · exact Or.inr ⟨[], a, data, rfl, nofun, stops⟩

/-- One element of a supply that hands out one at a time. -/
theorem Hands.single (hands : Hands read place data 1 last) {n : Nat} {a : α} {rest : List α}
    (left : data.drop n = a :: rest) :
    read (place n) = some (.ok [a], place (n + 1)) ∧ data.drop (n + 1) = rest := by
  have more : n < data.length := by
    by_contra none
    rw [List.drop_of_length_le (by omega)] at left
    cases left
  have given := hands.part n more
  rw [left] at given
  refine ⟨given, ?_⟩
  rw [← List.drop_drop, left]
  rfl

/-- A line that stops is given up to where it stops. -/
theorem Hands.gather_line (hands : Hands read place data 1 last) {b : α} (stops : stop b = true)
    {line rest : List α} (open' : ∀ a ∈ line, stop a = false) {n fuel : Nat}
    (left : data.drop n = line ++ b :: rest) (enough : line.length < fuel) (before : List α) :
    gather read stop fuel before (place n) =
      some (.ok (before ++ (line ++ [b])), place (n + (line ++ [b]).length)) := by
  induction line generalizing n fuel before with
  | nil =>
      obtain ⟨fuel, rfl⟩ := Nat.exists_eq_succ_of_ne_zero (Nat.ne_of_gt enough)
      have given := (hands.single left).1
      rw [gather_part given (List.cons_ne_nil b []), List.getLast?_concat]
      exact if_pos stops
  | cons a line ih =>
      obtain ⟨fuel, rfl⟩ := Nat.exists_eq_succ_of_ne_zero (Nat.ne_zero_of_lt enough)
      obtain ⟨goes, open'⟩ := List.forall_mem_cons.mp open'
      obtain ⟨given, left⟩ := hands.single left
      have goesOn : ¬ (before ++ [a]).getLast?.any stop = true := by
        rw [List.getLast?_concat, Option.any_some, goes]
        exact nofun
      rw [gather_part given (List.cons_ne_nil a []), if_neg goesOn,
        ih open' left (Nat.lt_of_succ_lt_succ enough) (before ++ [a]), List.append_assoc]
      congr 3
      simp only [List.cons_append, List.length_cons]
      omega

/-- A line that does not stop is given at the end, if the supply ends quietly. -/
theorem Hands.gather_rest (hands : Hands read place data 1 last) {line : List α}
    (open' : ∀ a ∈ line, stop a = false) {n fuel : Nat} (inside : n ≤ data.length)
    (left : data.drop n = line) (enough : line.length < fuel) (before : List α) :
    gather read stop fuel before (place n) =
      some (last.map fun _ => before ++ line, place data.length) := by
  induction line generalizing n fuel before with
  | nil =>
      obtain ⟨fuel, rfl⟩ := Nat.exists_eq_succ_of_ne_zero (Nat.ne_zero_of_lt enough)
      have all : n = data.length :=
        Nat.le_antisymm inside (List.drop_eq_nil_iff.mp left)
      subst all
      rw [gather]
      rcases hands.at_end with ⟨e, rfl, asked⟩ | ⟨rfl, asked⟩
      · rw [asked]
        rfl
      · rw [asked, List.append_nil]
        rfl
  | cons a line ih =>
      obtain ⟨fuel, rfl⟩ := Nat.exists_eq_succ_of_ne_zero (Nat.ne_zero_of_lt enough)
      obtain ⟨goes, open'⟩ := List.forall_mem_cons.mp open'
      have more : n < data.length := by
        by_contra none
        rw [List.drop_of_length_le (by omega)] at left
        cases left
      obtain ⟨given, left⟩ := hands.single left
      have goesOn : ¬ (before ++ [a]).getLast?.any stop = true := by
        rw [List.getLast?_concat, Option.any_some, goes]
        exact nofun
      rw [gather_part given (List.cons_ne_nil a []), if_neg goesOn,
        ih open' more left (Nat.lt_of_succ_lt_succ enough) (before ++ [a]), List.append_assoc]
      rfl

/-- How a loop over lines ends. -/
def ended (stop : α → Bool) (last : Except ε (List α)) (lines : List (List α)) :
    List (List α) × Option ε :=
  match last with
  | .ok _ => (lines, none)
  | .error e => (terminated stop lines, some e)

/-- Lines that are not complete are not kept. -/
theorem terminated_rest {line : List α} (open' : ∀ a ∈ line, stop a = false) :
    terminated stop (splitLines stop line) = [] := by
  by_cases none : line = []
  · subst none
    rfl
  · have never : ¬ line.getLast?.any stop = true := by
      rw [List.getLast?_eq_some_getLast none, Option.any_some, open' _ (List.getLast_mem none)]
      exact nofun
    rw [splitLines_rest open' none]
    exact List.filter_cons_of_neg never

theorem ended_line {line : List α} {b : α} (stops : stop b = true) (last : Except ε (List α))
    (lines : List (List α)) :
    ended stop last ((line ++ [b]) :: lines) =
      ((line ++ [b]) :: (ended stop last lines).1, (ended stop last lines).2) := by
  cases last with
  | ok part => rfl
  | error e =>
      have complete : (line ++ [b]).getLast?.any stop = true := by
        rw [List.getLast?_concat]
        exact stops
      exact congrArg (·, some e) (List.filter_cons_of_pos complete)

/-- Line by line, the supply gives its lines; if it raises at the end, a last line that is not
complete is not given. -/
theorem Hands.lines (hands : Hands read place data 1 last) {n fuel width : Nat}
    (inside : n ≤ data.length) (enough : data.length - n < fuel) (wide : data.length < width) :
    Supply.drain (gather read stop width []) fuel (place n) =
      some (ended stop last (splitLines stop (data.drop n)), place data.length) := by
  induction fuel generalizing n with
  | zero => exact absurd enough (Nat.not_lt_zero _)
  | succ fuel ih =>
      have shorter : (data.drop n).length ≤ data.length := by
        rw [List.length_drop]
        exact Nat.sub_le _ _
      rcases stop_cases stop (data.drop n) with open' | ⟨line, b, rest, left, open', stops⟩
      · have given := hands.gather_rest open' inside rfl (by omega : _ < width) []
        rcases last with e | part
        · rw [Supply.drain, given]
          exact congrArg (fun lines => some ((lines, some e), place data.length))
            (terminated_rest open').symm
        · by_cases none : data.drop n = []
          · rw [Supply.drain, given, none]
            rfl
          · have length := List.length_pos_iff.mpr none
            rw [List.length_drop] at length
            have rest := ih (n := data.length) (Nat.le_refl _) (by omega)
            rw [List.drop_length] at rest
            rw [drain_part given none, rest, splitLines_rest open' none]
            rfl
      · have enough' : line.length < width := by
          have length := congrArg List.length left
          rw [List.length_append, List.length_cons] at length
          omega
        have given := hands.gather_line stops open' left enough' []
        have some' : line ++ [b] ≠ [] := List.append_ne_nil_of_right_ne_nil line (by simp)
        rw [List.nil_append] at given
        have further : data.drop (n + (line ++ [b]).length) = rest := by
          rw [← List.drop_drop, left, List.append_cons line b rest, List.drop_left]
        have length := congrArg List.length left
        rw [List.length_append, List.length_cons, List.length_drop] at length
        have reach : n + (line ++ [b]).length ≤ data.length := by
          rw [List.length_append, List.length_singleton]
          omega
        have lines := ih reach (by
          rw [List.length_append, List.length_singleton] at reach ⊢
          omega)
        rw [further] at lines
        rw [drain_part given some', lines, left, splitLines_line open' stops, ended_line stops]
        rfl

end Supply
