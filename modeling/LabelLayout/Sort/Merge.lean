/-!
# `LabelLayout.Sort.Merge`: two neighbouring runs made one

What already stands at its place, at the front of the earlier run and at the back
of the later one, is left there. The rest is merged from the front, or from the
back when the later run is the shorter one. Items are compared one by one until
one run has won often in a row; from then on the number of items that go together
is searched for, by steps that double and then by halving, as long as that many go
together. The number of wins that starts a search is the *patience*: it falls while
searching pays, grows when it stops paying, and lasts from one merge to the next.

Over a linear order any way of merging gives the same list. `mergeRuns_perm` holds
for every comparison: the result has the items of both runs.
-/

set_option autoImplicit false

namespace LabelLayout.Sort

variable {β : Type}

/-! ## Searching -/

/-- The last position that was seen to go and the next one that was not, or the
limit, found by steps that double. -/
def stride (goes : Nat → Bool) (limit last next : Nat) : Nat × Nat :=
  if _h : next < limit then
    if goes next then stride goes limit next (2 * next + 1) else (last, next)
  else (last, limit)
termination_by limit - next
decreasing_by omega

/-- The number of items that go together, between two bounds, by halving. From the
back, the middle of an even stretch is the other one. -/
def halve (goes : Nat → Bool) (fromBack : Bool) (low high : Nat) : Nat :=
  if _h : low < high then
    let middle := low + (high - low - fromBack.toNat) / 2
    if goes middle then halve goes fromBack (middle + 1) high
    else halve goes fromBack low middle
  else low
termination_by high - low
decreasing_by all_goals (cases fromBack <;> simp_all <;> omega)

/-- How many items at the front of a list go together. -/
def gallop (fromBack : Bool) (goes : β → Bool) (items : List β) : Nat :=
  let goesAt (i : Nat) : Bool := items[i]?.any goes
  if goesAt 0 then
    let (last, next) := stride goesAt items.length 0 1
    halve goesAt fromBack (last + 1) next
  else 0

/-! ## Merging -/

/-- A merge on its way: what is merged, the latest item first, and what is left of
two runs. The last item of `anchored` ends the merge. -/
structure Merging (β : Type) where
  merged : List β
  loose : List β
  anchored : List β
  deriving Repr, Inhabited

namespace Merging

/-- Whether no comparison is left to make. -/
def isDone (m : Merging β) : Bool := m.loose.isEmpty || m.anchored.length ≤ 1

/-- The items of a merge that is done, in order. -/
def items (m : Merging β) : List β := m.merged.reverse ++ (m.loose ++ m.anchored)

/-- Takes items off the loose run, unless the merge is done. -/
def takeLoose (n : Nat) (m : Merging β) : Merging β :=
  if m.isDone then m
  else ⟨(m.loose.take n).reverse ++ m.merged, m.loose.drop n, m.anchored⟩

/-- Takes items off the anchored run, unless the merge is done. -/
def takeAnchored (n : Nat) (m : Merging β) : Merging β :=
  if m.isDone then m
  else ⟨(m.anchored.take n).reverse ++ m.merged, m.loose, m.anchored.drop n⟩

/-- Whether the next item of the loose run goes before that of the anchored run. -/
def looseFirst (ahead : β → β → Bool) (m : Merging β) : Bool :=
  match m.loose, m.anchored with
  | q :: _, p :: _ => ahead q p
  | _, _ => false

/-- How many items of the loose run go before the next of the anchored run. -/
def leadLoose (fromBack : Bool) (ahead : β → β → Bool) (m : Merging β) : Nat :=
  match m.anchored with
  | p :: _ => gallop fromBack (fun q => ahead q p) m.loose
  | [] => 0

/-- How many items of the anchored run go before the next of the loose run. -/
def leadAnchored (fromBack : Bool) (ahead : β → β → Bool) (m : Merging β) : Nat :=
  match m.loose with
  | q :: _ => gallop fromBack (fun p => !ahead q p) m.anchored
  | [] => 0

/-- Takes what goes together off the anchored run, then the next item of the loose
run. Also answers how many went together. -/
def roundAnchored (fromBack : Bool) (ahead : β → β → Bool) (m : Merging β) :
    Merging β × Nat :=
  let n := m.leadAnchored fromBack ahead
  ((m.takeAnchored n).takeLoose 1, n)

/-- Takes what goes together off the loose run, then the next item of the anchored
run. Also answers how many went together. -/
def roundLoose (fromBack : Bool) (ahead : β → β → Bool) (m : Merging β) :
    Merging β × Nat :=
  let n := m.leadLoose fromBack ahead
  ((m.takeLoose n).takeAnchored 1, n)

/-- Takes what goes together off both runs, the earlier run's first. Also answers
the larger number of items that went together. -/
def round (fromBack : Bool) (ahead : β → β → Bool) (m : Merging β) : Merging β × Nat :=
  if fromBack then
    let (m, n) := m.roundLoose fromBack ahead
    let (m, k) := m.roundAnchored fromBack ahead
    (m, max n k)
  else
    let (m, n) := m.roundAnchored fromBack ahead
    let (m, k) := m.roundLoose fromBack ahead
    (m, max n k)

end Merging

/-- How a merge goes on. -/
inductive Pace where
  /-- Item by item; how often in a row the loose and the anchored run have won. -/
  | single (loose anchored : Nat)
  /-- By searching. -/
  | searching
  deriving DecidableEq, Repr, Inhabited

/-- The number of items that have to go together for the search to pay, and the
patience to begin with. -/
def worthwhile : Nat := 7

/-- Goes on with a merge until it is done. The merge and the patience at its end. -/
def advance (fromBack : Bool) (ahead : β → β → Bool) :
    (fuel patience : Nat) → Pace → Merging β → Merging β × Nat
  | 0, patience, _, m => (m, patience)
  | fuel + 1, patience, pace, m =>
    if m.isDone then (m, patience)
    else match pace with
      | .single loose anchored =>
        if m.looseFirst ahead then
          let pace := if patience ≤ loose + 1 then .searching else .single (loose + 1) 0
          advance fromBack ahead fuel patience pace (m.takeLoose 1)
        else
          let pace := if patience ≤ anchored + 1 then .searching else .single 0 (anchored + 1)
          advance fromBack ahead fuel patience pace (m.takeAnchored 1)
      | .searching =>
        let (m, longest) := m.round fromBack ahead
        if m.isDone then (m, patience)
        else if worthwhile ≤ longest then
          advance fromBack ahead fuel (max 1 (patience - 1)) .searching m
        else advance fromBack ahead fuel (patience + 1) (.single 0 0) m

/-- Two runs merged from the front of which the first item of the loose one goes
first and the last item of the anchored one last. -/
def mergeFrom (fromBack : Bool) (ahead : β → β → Bool) (patience : Nat)
    (loose anchored : List β) : List β × Nat :=
  let (m, patience) := advance fromBack ahead (loose.length + anchored.length + 1) patience
    (.single 0 0) (Merging.takeLoose 1 ⟨[], loose, anchored⟩)
  (m.items, patience)

/-- Two neighbouring runs, less what stands at its place, merged from the side of
the shorter one. -/
def mergeInner (before : β → β → Bool) (patience : Nat) (earlier later : List β) :
    List β × Nat :=
  if later.isEmpty then (earlier, patience)
  else if earlier.length ≤ later.length then mergeFrom false before patience later earlier
  else
    let (items, patience) :=
      mergeFrom true (fun x y => before y x) patience earlier.reverse later.reverse
    (items.reverse, patience)

/-- How many items at the front of a run do not come behind the first of the next
one. -/
def settledFront (before : β → β → Bool) (earlier later : List β) : Nat :=
  match later with
  | y :: _ => gallop false (fun x => !before y x) earlier
  | [] => earlier.length

/-- How many items of a run are left without those at its back that do not come
before the last item of the run in front of it. -/
def unsettledBack (before : β → β → Bool) (earlier later : List β) : Nat :=
  match earlier.getLast? with
  | some x => later.length - gallop true (fun y => !before y x) later.reverse
  | none => 0

/-- Two neighbouring runs made one, and the patience left. -/
def mergeRuns (before : β → β → Bool) (patience : Nat) (earlier later : List β) :
    List β × Nat :=
  let front := settledFront before earlier later
  let n := unsettledBack before (earlier.drop front) later
  let (inner, patience) := mergeInner before patience (earlier.drop front) (later.take n)
  (earlier.take front ++ inner ++ later.drop n, patience)

/-! ## Nothing is lost -/

namespace Merging

theorem items_takeLoose_perm (n : Nat) (m : Merging β) :
    (m.takeLoose n).items.Perm m.items := by
  simp only [takeLoose]
  split
  · exact .refl _
  · simp only [items, List.reverse_append, List.reverse_reverse, List.append_assoc]
    rw [← List.append_assoc (m.loose.take n), List.take_append_drop]

theorem items_takeAnchored_perm (n : Nat) (m : Merging β) :
    (m.takeAnchored n).items.Perm m.items := by
  simp only [takeAnchored]
  split
  · exact .refl _
  · simp only [items, List.reverse_append, List.reverse_reverse, List.append_assoc]
    refine List.Perm.append_left _ ?_
    refine (List.perm_append_comm_assoc _ _ _).trans ?_
    rw [List.take_append_drop]

theorem items_roundAnchored_perm (fromBack : Bool) (ahead : β → β → Bool) (m : Merging β) :
    (m.roundAnchored fromBack ahead).1.items.Perm m.items :=
  (items_takeLoose_perm _ _).trans (items_takeAnchored_perm _ _)

theorem items_roundLoose_perm (fromBack : Bool) (ahead : β → β → Bool) (m : Merging β) :
    (m.roundLoose fromBack ahead).1.items.Perm m.items :=
  (items_takeAnchored_perm _ _).trans (items_takeLoose_perm _ _)

theorem items_round_perm (fromBack : Bool) (ahead : β → β → Bool) (m : Merging β) :
    (m.round fromBack ahead).1.items.Perm m.items := by
  simp only [round]
  split
  · exact (items_roundAnchored_perm _ _ _).trans (items_roundLoose_perm _ _ _)
  · exact (items_roundLoose_perm _ _ _).trans (items_roundAnchored_perm _ _ _)

end Merging

theorem items_advance_perm (fromBack : Bool) (ahead : β → β → Bool) (fuel patience : Nat)
    (pace : Pace) (m : Merging β) :
    (advance fromBack ahead fuel patience pace m).1.items.Perm m.items := by
  induction fuel generalizing patience pace m with
  | zero => exact .refl _
  | succ fuel ih =>
    simp only [advance]
    split
    · exact .refl _
    · cases pace with
      | single loose anchored =>
        simp only
        split
        · exact (ih _ _ _).trans (Merging.items_takeLoose_perm _ _)
        · exact (ih _ _ _).trans (Merging.items_takeAnchored_perm _ _)
      | searching =>
        simp only
        split
        · exact Merging.items_round_perm _ _ _
        · split
          · exact (ih _ _ _).trans (Merging.items_round_perm _ _ _)
          · exact (ih _ _ _).trans (Merging.items_round_perm _ _ _)

theorem mergeFrom_perm (fromBack : Bool) (ahead : β → β → Bool) (patience : Nat)
    (loose anchored : List β) :
    (mergeFrom fromBack ahead patience loose anchored).1.Perm (loose ++ anchored) := by
  have h := Merging.items_takeLoose_perm 1 (⟨[], loose, anchored⟩ : Merging β)
  simp only [mergeFrom]
  exact (items_advance_perm _ _ _ _ _ _).trans h

theorem mergeInner_perm (before : β → β → Bool) (patience : Nat) (earlier later : List β) :
    (mergeInner before patience earlier later).1.Perm (earlier ++ later) := by
  simp only [mergeInner]
  split
  · next h => simp [List.isEmpty_iff.1 h]
  · split
    · exact (mergeFrom_perm _ _ _ _ _).trans List.perm_append_comm
    · refine (List.reverse_perm _).trans ((mergeFrom_perm _ _ _ _ _).trans ?_)
      exact (List.reverse_perm _).append (List.reverse_perm _)

/-- Merging loses nothing and adds nothing, whatever the comparison. -/
theorem mergeRuns_perm (before : β → β → Bool) (patience : Nat) (earlier later : List β) :
    (mergeRuns before patience earlier later).1.Perm (earlier ++ later) := by
  simp only [mergeRuns]
  refine (((mergeInner_perm before patience _ _).append_left _).append_right _).trans ?_
  rw [← List.append_assoc, List.take_append_drop, List.append_assoc, List.take_append_drop]

end LabelLayout.Sort
