import LabelLayout.Sort.Merge
import LabelLayout.Sort.Run

/-!
# `LabelLayout.Sort`: sorting by runs

A list is cut into runs, and neighbouring runs are merged. Which ones and when
follows from where their boundary lies: the list is halved again and again, and the
level of a boundary is the first halving that separates the middles of the two runs.
A run is merged with the one in front of it before a boundary of a lower level is
passed.

Over keys in a linear order this is the stable sort, which `List.mergeSort` also is.
Keys need not be: where a key compares false with everything, as a number that is
none does, the result is what the comparisons made on the way leave. `sort_perm`
holds in any case: the result has the items of the list.
-/

set_option autoImplicit false

namespace LabelLayout.Sort

variable {β : Type}

/-- A run, where it starts in the list, and the level of the boundary in front of
it. -/
structure Run (β : Type) where
  start : Nat
  level : Nat
  items : List β
  deriving Repr, Inhabited

/-- The fewest items of a run: all of a short list, and of a long one a part that
cuts it into a power of two of them, or slightly less. -/
def leastRun (carry n : Nat) : Nat :=
  if n < 64 then n + carry else leastRun (max carry (n % 2)) (n / 2)

/-- The first halving of `0 … size` that separates two points, both given times two. -/
def halvings (size : Nat) : (fuel first second : Nat) → Nat
  | 0, _, _ => 0
  | fuel + 1, first, second =>
    if size ≤ first then
      halvings size fuel (2 * (first - size)) (2 * (second - size)) + 1
    else if size ≤ second then 1
    else halvings size fuel (2 * first) (2 * second) + 1

/-- The level of the boundary between neighbouring runs in a list of a size. -/
def boundaryLevel (size : Nat) (run : Run β) (next : List β) : Nat :=
  let middle := 2 * run.start + run.items.length
  halvings size (size + 1) middle (middle + run.items.length + next.length)

/-- A run merged with the one in front of it, and the patience left. -/
def Run.join (before : β → β → Bool) (patience : Nat) (earlier later : Run β) :
    Run β × Nat :=
  let (items, patience) := mergeRuns before patience earlier.items later.items
  (⟨earlier.start, earlier.level, items⟩, patience)

/-- Merges the latest runs whose boundary has a higher level. Runs are listed from
the latest on. -/
def settle (before : β → β → Bool) (level patience : Nat) : List (Run β) → List (Run β) × Nat
  | later :: earlier :: rest =>
    if level < later.level then
      let (run, patience) := earlier.join before patience later
      settle before level patience (run :: rest)
    else (later :: earlier :: rest, patience)
  | runs => (runs, patience)
termination_by runs => runs.length

/-- The runs behind which a further run can stand, the level of its boundary, and
the patience left. -/
def makeRoom (before : β → β → Bool) (size patience : Nat) (runs : List (Run β))
    (next : List β) : List (Run β) × Nat × Nat :=
  match runs with
  | [] => ([], 0, patience)
  | run :: rest =>
    let level := boundaryLevel size run next
    let (runs, patience) := settle before level patience (run :: rest)
    (runs, level, patience)

/-- Cuts items into runs and puts them behind those that are there. -/
def gather (before : β → β → Bool) (size least : Nat) :
    (fuel patience start : Nat) → List (Run β) → List β → List (Run β) × Nat
  | 0, patience, start, runs, items => (⟨start, 0, items⟩ :: runs, patience)
  | fuel + 1, patience, start, runs, items =>
    if items.isEmpty then (runs, patience)
    else
      let (next, after) := nextRun before least items
      let (runs, level, patience) := makeRoom before size patience runs next
      gather before size least fuel patience (start + next.length)
        (⟨start, level, next⟩ :: runs) after

/-- Merges all runs, the latest first, but the second with the third where the third
is shorter than the latest. -/
def mergeAll (before : β → β → Bool) (patience : Nat) : List (Run β) → List β
  | [] => []
  | [run] => run.items
  | [later, earlier] => (earlier.join before patience later).1.items
  | latest :: later :: earlier :: rest =>
    if earlier.items.length < latest.items.length then
      let (run, patience) := earlier.join before patience later
      mergeAll before patience (latest :: run :: rest)
    else
      let (run, patience) := later.join before patience latest
      mergeAll before patience (run :: earlier :: rest)
termination_by runs => runs.length

/-- The items in order. -/
def sort (before : β → β → Bool) (items : List β) : List β :=
  let size := items.length
  let (runs, patience) := gather before size (leastRun 0 size) size worthwhile 0 [] items
  mergeAll before patience runs

/-! ## Nothing is lost -/

/-- The items of runs that are listed from the latest on. -/
def itemsOf (runs : List (Run β)) : List β := runs.flatMap Run.items

theorem items_join_perm (before : β → β → Bool) (patience : Nat) (earlier later : Run β) :
    (earlier.join before patience later).1.items.Perm (later.items ++ earlier.items) :=
  (mergeRuns_perm before patience _ _).trans List.perm_append_comm

theorem itemsOf_settle_perm (before : β → β → Bool) (level patience : Nat)
    (runs : List (Run β)) :
    (itemsOf (settle before level patience runs).1).Perm (itemsOf runs) := by
  fun_induction settle before level patience runs with
  | case1 patience later earlier rest h run patience' hjoin ih =>
    refine ih.trans ?_
    have hrun := items_join_perm before patience earlier later
    rw [hjoin] at hrun
    simpa [itemsOf] using hrun.append_right (itemsOf rest)
  | case2 => exact .refl _
  | case3 => exact .refl _

theorem itemsOf_makeRoom_perm (before : β → β → Bool) (size patience : Nat)
    (runs : List (Run β)) (next : List β) :
    (itemsOf (makeRoom before size patience runs next).1).Perm (itemsOf runs) := by
  cases runs with
  | nil => exact .refl _
  | cons run rest => exact itemsOf_settle_perm _ _ _ _

theorem itemsOf_gather_perm (before : β → β → Bool) (size least fuel patience start : Nat)
    (runs : List (Run β)) (items : List β) :
    (itemsOf (gather before size least fuel patience start runs items).1).Perm
      (items ++ itemsOf runs) := by
  induction fuel generalizing patience start runs items with
  | zero => exact .refl _
  | succ fuel ih =>
    simp only [gather]
    split
    · next h => simp [List.isEmpty_iff.1 h]
    · refine (ih _ _ _ _).trans ?_
      have hroom := itemsOf_makeRoom_perm before size patience runs (nextRun before least items).1
      simp only [itemsOf, List.flatMap_cons] at hroom ⊢
      refine (List.perm_append_comm_assoc _ _ _).trans ?_
      rw [← List.append_assoc]
      exact (nextRun_perm before least items).append hroom

theorem mergeAll_perm (before : β → β → Bool) (patience : Nat) (runs : List (Run β)) :
    (mergeAll before patience runs).Perm (itemsOf runs) := by
  fun_induction mergeAll before patience runs with
  | case1 => exact .refl _
  | case2 => simp [itemsOf]
  | case3 patience later earlier =>
    simpa [itemsOf] using items_join_perm before patience earlier later
  | case4 patience latest later earlier rest h run patience' hjoin ih =>
    have hrun := items_join_perm before patience earlier later
    rw [hjoin] at hrun
    refine ih.trans ?_
    simpa [itemsOf] using (hrun.append_right (itemsOf rest)).append_left latest.items
  | case5 patience latest later earlier rest h run patience' hjoin ih =>
    have hrun := items_join_perm before patience later latest
    rw [hjoin] at hrun
    refine ih.trans ?_
    simpa [itemsOf] using hrun.append_right (earlier.items ++ itemsOf rest)

/-- Sorting loses nothing and adds nothing, whatever the comparison. -/
theorem sort_perm (before : β → β → Bool) (items : List β) :
    (sort before items).Perm items := by
  refine (mergeAll_perm _ _ _).trans ((itemsOf_gather_perm _ _ _ _ _ _ _ _).trans ?_)
  simp [itemsOf]

end LabelLayout.Sort
