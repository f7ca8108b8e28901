/-!
# `LabelLayout.Sort.Run`: runs at the front of a list

A run is a stretch of a list that is in order. The longest one at the front of a
list is taken as it stands, or reversed where each item comes strictly before the
one in front of it. A run that is short is made longer: each further item goes
behind all items that are not greater, to a place found by halving.

`nextRun_perm` says that the run and what follows hold the items of the list,
whatever the comparison.
-/

set_option autoImplicit false

namespace LabelLayout.Sort

variable {β : Type}

/-- The place for an item among the items from `low` up to `high`. -/
def place (before : β → β → Bool) (x : β) (sorted : List β) (low high : Nat) : Nat :=
  if _h : low < high then
    let middle := low + (high - low) / 2
    match sorted[middle]? with
    | some y =>
      if before x y then place before x sorted low middle
      else place before x sorted (middle + 1) high
    | none => low
  else low
termination_by high - low
decreasing_by all_goals omega

/-- An item put at its place. -/
def insert (before : β → β → Bool) (sorted : List β) (x : β) : List β :=
  let i := place before x sorted 0 sorted.length
  sorted.take i ++ x :: sorted.drop i

/-- The longest run behind `previous` in which each item stands in a relation to
the one in front of it, and what follows. -/
def spanRun (related : β → β → Bool) (previous : β) : List β → List β × List β
  | [] => ([], [])
  | x :: rest =>
    if related previous x then
      let (run, after) := spanRun related x rest
      (x :: run, after)
    else ([], x :: rest)

/-- The run at the front of a list, in order, and what follows. -/
def naturalRun (before : β → β → Bool) : List β → List β × List β
  | x :: y :: rest =>
    if before y x then
      let (run, after) := spanRun (fun a b => before b a) y rest
      ((x :: y :: run).reverse, after)
    else
      let (run, after) := spanRun (fun a b => !before b a) y rest
      (x :: y :: run, after)
  | items => (items, [])

/-- A run of at least so many items, as far as the list has them, and what
follows. -/
def nextRun (before : β → β → Bool) (least : Nat) (items : List β) : List β × List β :=
  let (run, after) := naturalRun before items
  let missing := least - run.length
  ((after.take missing).foldl (insert before) run, after.drop missing)

/-- Inserting adds the item and nothing else. -/
theorem insert_perm (before : β → β → Bool) (sorted : List β) (x : β) :
    (insert before sorted x).Perm (x :: sorted) := by
  simp only [insert]
  refine List.perm_middle.trans ?_
  rw [List.take_append_drop]

/-- Inserting one item after the other adds them all. -/
theorem foldl_insert_perm (before : β → β → Bool) (items sorted : List β) :
    (items.foldl (insert before) sorted).Perm (sorted ++ items) := by
  induction items generalizing sorted with
  | nil => simp
  | cons x rest ih =>
    refine (ih _).trans (((insert_perm before sorted x).append_right rest).trans ?_)
    exact List.perm_middle.symm

/-- The run and what follows make up the list. -/
theorem spanRun_append (related : β → β → Bool) (previous : β) (items : List β) :
    (spanRun related previous items).1 ++ (spanRun related previous items).2 = items := by
  induction items generalizing previous with
  | nil => rfl
  | cons x rest ih =>
    simp only [spanRun]
    split
    · simp [ih x]
    · rfl

/-- The run at the front and what follows hold the items of the list. -/
theorem naturalRun_perm (before : β → β → Bool) (items : List β) :
    ((naturalRun before items).1 ++ (naturalRun before items).2).Perm items := by
  match items with
  | [] => exact .refl _
  | [x] => exact .refl _
  | x :: y :: rest =>
    simp only [naturalRun]
    split
    · refine ((List.reverse_perm _).append_right _).trans ?_
      simp [spanRun_append]
    · simp [spanRun_append]

/-- The next run and what follows hold the items of the list. -/
theorem nextRun_perm (before : β → β → Bool) (least : Nat) (items : List β) :
    ((nextRun before least items).1 ++ (nextRun before least items).2).Perm items := by
  simp only [nextRun]
  refine ((foldl_insert_perm before _ _).append_right _).trans ?_
  rw [List.append_assoc, List.take_append_drop]
  exact naturalRun_perm before items

end LabelLayout.Sort
