import Mathlib.Data.List.Forall2

/-!
# `LabelLayout.Proofs.Except`: taking computations that may fail apart

A computation in steps gives a result exactly when every step gives one
(`bind_eq_ok`), and fails with the error of the first step that fails
(`bind_eq_error`). The same holds for a computation on all items of a list
(`mapM_eq_ok`, `exists_mapM_iff`, `mapM_eq_error`), and a search among them stops at the first
that is looked for (`findM?_eq_some`). `FailsWith` says of which kind all
errors of a computation are, and passes through its steps.
-/

set_option autoImplicit false

namespace LabelLayout

variable {ε α β γ : Type}

theorem ok_bind (a : α) (f : α → Except ε β) : (Except.ok a >>= f) = f a := rfl

theorem error_bind (e : ε) (f : α → Except ε β) : (Except.error e >>= f) = .error e := rfl

/-- Steps give a result when each of them does. -/
theorem bind_eq_ok {x : Except ε α} {f : α → Except ε β} {b : β} :
    (x >>= f) = .ok b ↔ ∃ a, x = .ok a ∧ f a = .ok b := by
  cases x with
  | ok a => simp [ok_bind]
  | error e => simp [error_bind]

/-- Steps fail with the error of the first that fails. -/
theorem bind_eq_error {x : Except ε α} {f : α → Except ε β} {e : ε} :
    (x >>= f) = .error e ↔ x = .error e ∨ ∃ a, x = .ok a ∧ f a = .error e := by
  cases x with
  | ok a => simp [ok_bind]
  | error e => simp [error_bind]

/-- Steps give some result when the first does and the others do with what it gives. -/
theorem exists_bind {x : Except ε α} {f : α → Except ε β} (hx : ∃ a, x = .ok a)
    (hf : ∀ a, x = .ok a → ∃ b, f a = .ok b) : ∃ b, (x >>= f) = .ok b := by
  obtain ⟨a, ha⟩ := hx
  obtain ⟨b, hb⟩ := hf a ha
  exact ⟨b, bind_eq_ok.mpr ⟨a, ha, hb⟩⟩

/-- What does not fail gives a result. -/
theorem exists_eq_ok_iff {x : Except ε α} : (∃ a, x = .ok a) ↔ ∀ e, x ≠ .error e := by
  cases x <;> simp

/-- What is found not to have failed gives a result. -/
theorem exists_of_isOk {x : Except ε α} (h : x.isOk = true) : ∃ a, x = .ok a := by
  cases x with
  | ok a => exact ⟨a, rfl⟩
  | error e => cases h

theorem pure_eq_ok {a b : α} : (pure a : Except ε α) = .ok b ↔ a = b := by
  rw [show (pure a : Except ε α) = .ok a from rfl, Except.ok.injEq]

/-- A guarded computation gives a result when the guard is off. -/
theorem guard_eq_ok {c : Bool} {e : ε} {x : Except ε β} {b : β} :
    (do if c then throw e
        x : Except ε β) = .ok b ↔ c = false ∧ x = .ok b := by
  cases c with
  | true => exact ⟨fun h => (nomatch h), fun h => (nomatch h.1)⟩
  | false => exact ⟨fun h => ⟨rfl, h⟩, And.right⟩

/-- A result that is worked on comes from a result. -/
theorem map_eq_ok {x : Except ε α} {f : α → β} {b : β} :
    x.map f = .ok b ↔ ∃ a, x = .ok a ∧ f a = b := by
  cases x <;> simp [Except.map]

/-- What works on a result keeps the failures. -/
theorem map_eq_error {x : Except ε α} {f : α → β} {e : ε} :
    x.map f = .error e ↔ x = .error e := by
  cases x <;> simp [Except.map]

/-- Results are worked on alike by what does the same with the one there is. -/
theorem map_congr_of_ok {x : Except ε α} {f g : α → β} (h : ∀ a, x = .ok a → f a = g a) :
    x.map f = x.map g := by
  cases x with
  | ok a => exact congrArg Except.ok (h a rfl)
  | error e => rfl

theorem map_eq_self {x : Except ε α} {f : α → α} (h : ∀ a, x = .ok a → f a = a) :
    x.map f = x :=
  (map_congr_of_ok h).trans (by cases x <;> rfl)

/-- Working on the outcome of two steps is working on what the second gives. -/
theorem map_bind {x : Except ε α} {f : α → Except ε β} {g : β → γ} :
    (x >>= f).map g = x >>= fun a => (f a).map g := by
  cases x <;> rfl

/-- Working on a result twice is working on it once. -/
theorem map_map {x : Except ε α} {f : α → β} {g : β → γ} :
    (x.map f).map g = x.map fun a => g (f a) := by
  cases x <;> rfl

/-- What comes after a result that is worked on takes it as it then is. -/
theorem bind_map {x : Except ε α} {f : α → β} {g : β → Except ε γ} :
    (x.map f >>= g) = x >>= fun a => g (f a) := by
  cases x <;> rfl

/-! ### Failures of a kind -/

/-- The computation fails with an error of that kind, if it fails. -/
def FailsWith (Q : ε → Prop) (x : Except ε α) : Prop := ∀ e, x = .error e → Q e

section

variable {P Q : ε → Prop}

theorem failsWith_pure (a : α) : FailsWith Q (pure a) := fun _ h => nomatch h

theorem FailsWith.bind {x : Except ε α} {f : α → Except ε β} (hx : FailsWith Q x)
    (hf : ∀ a, FailsWith Q (f a)) : FailsWith Q (x >>= f) := by
  intro e h
  rcases bind_eq_error.mp h with h | ⟨a, -, h⟩
  · exact hx e h
  · exact hf a e h

theorem FailsWith.guard {c : Prop} [Decidable c] {e : ε} {x : Except ε β} (he : Q e)
    (hx : FailsWith Q x) : FailsWith Q (do if c then throw e
                                           x) := by
  by_cases hc : c
  · simp only [if_pos hc]
    intro e' h
    cases h
    exact he
  · simp only [if_neg hc]
    exact hx

theorem FailsWith.mono {x : Except ε α} (hx : FailsWith P x) (h : ∀ e, P e → Q e) :
    FailsWith Q x := fun e he => h e (hx e he)

end

/-! ### Lists -/

/-- Every item gives its result. -/
theorem mapM_ok {f : α → Except ε β} {g : α → β} {xs : List α}
    (h : ∀ x ∈ xs, f x = .ok (g x)) : xs.mapM f = .ok (xs.map g) := by
  induction xs with
  | nil => rfl
  | cons x xs ih =>
    rw [List.mapM_cons, h x List.mem_cons_self, ok_bind,
      ih fun y hy => h y (List.mem_cons_of_mem _ hy), ok_bind]
    rfl

/-- A list gives some results when each of its items does. -/
theorem exists_mapM {f : α → Except ε β} {xs : List α} (h : ∀ x ∈ xs, ∃ y, f x = .ok y) :
    ∃ ys, xs.mapM f = .ok ys := by
  induction xs with
  | nil => exact ⟨[], rfl⟩
  | cons x xs ih =>
    rw [List.mapM_cons]
    exact exists_bind (h x List.mem_cons_self) fun _ _ =>
      exists_bind (ih fun y hy => h y (List.mem_cons_of_mem _ hy)) fun _ _ => ⟨_, rfl⟩

/-- A list gives the results of its items, in their order. -/
theorem mapM_eq_ok {f : α → Except ε β} {xs : List α} {ys : List β} :
    xs.mapM f = .ok ys ↔ List.Forall₂ (fun x y => f x = .ok y) xs ys := by
  induction xs generalizing ys with
  | nil =>
    constructor
    · rintro ⟨⟩
      exact .nil
    · rintro ⟨⟩
      rfl
  | cons x xs ih =>
    simp only [List.mapM_cons, bind_eq_ok, pure_eq_ok]
    constructor
    · rintro ⟨y, hy, ys, hys, rfl⟩
      exact .cons hy (ih.mp hys)
    · rintro (_ | ⟨hy, hys⟩)
      exact ⟨_, hy, _, ih.mpr hys, rfl⟩

/-- Each item of a list that gives results gives one. -/
theorem exists_of_forall₂ {R : α → β → Prop} {xs : List α} {ys : List β}
    (h : List.Forall₂ R xs ys) : ∀ x ∈ xs, ∃ y ∈ ys, R x y := by
  induction h with
  | nil => exact fun x hx => absurd hx List.not_mem_nil
  | cons hxy _ ih =>
    intro x hx
    rcases List.mem_cons.mp hx with rfl | hx
    · exact ⟨_, List.mem_cons_self, hxy⟩
    · obtain ⟨y, hy, hxy⟩ := ih x hx
      exact ⟨y, List.mem_cons_of_mem _ hy, hxy⟩

/-- What each item of one list has of the one in its place, the lists have of each other. -/
theorem map_eq_of_forall₂ {g : β → γ} {k : α → γ} {xs : List α} {ys : List β}
    (h : List.Forall₂ (fun x y => g y = k x) xs ys) : ys.map g = xs.map k := by
  induction h with
  | nil => rfl
  | cons hxy _ ih => rw [List.map_cons, List.map_cons, hxy, ih]

/-- Items are paired with what stands for them. -/
theorem forall₂_zip {R : α → β → Prop} {xs : List α} {ys : List β} (h : List.Forall₂ R xs ys) :
    List.Forall₂ (fun x p => p.1 = x ∧ R x p.2) xs (xs.zip ys) := by
  induction h with
  | nil => exact .nil
  | cons hxy _ ih => exact .cons ⟨rfl, hxy⟩ ih

/-- What stands under distinct keys is found under them. -/
theorem lookup_of_mem {κ : Type} [BEq κ] [LawfulBEq κ] {l : List (κ × β)}
    (hkeys : (l.map Prod.fst).Nodup) {key : κ} {b : β} (h : (key, b) ∈ l) :
    l.lookup key = some b := by
  induction l with
  | nil => cases h
  | cons p l ih =>
    obtain ⟨other, c⟩ := p
    rw [List.map_cons, List.nodup_cons] at hkeys
    rcases List.mem_cons.mp h with heq | hmem
    · cases heq
      rw [List.lookup_cons_self]
    · have hne : (key == other) = false := by
        rw [beq_eq_false_iff_ne]
        rintro rfl
        exact hkeys.1 (List.mem_map.mpr ⟨_, hmem, rfl⟩)
      rw [List.lookup_cons, hne]
      exact ih hkeys.2 hmem

/-- A list gives results exactly when each of its items does. -/
theorem exists_mapM_iff {f : α → Except ε β} {xs : List α} :
    (∃ ys, xs.mapM f = .ok ys) ↔ ∀ x ∈ xs, ∃ y, f x = .ok y := by
  refine ⟨fun ⟨ys, h⟩ x hx => ?_, exists_mapM⟩
  obtain ⟨y, -, hy⟩ := exists_of_forall₂ (mapM_eq_ok.mp h) x hx
  exact ⟨y, hy⟩

/-- Going on with the results of a list is going on with the result of each item. -/
theorem mapM_of_forall₂ {f : α → Except ε β} {xs : List α} {ys : List β}
    (h : List.Forall₂ (fun x y => f x = .ok y) xs ys) (g : β → Except ε γ) :
    ys.mapM g = xs.mapM fun x => f x >>= g := by
  induction h with
  | nil => rfl
  | cons hxy _ ih => rw [List.mapM_cons, List.mapM_cons, hxy, ok_bind, ih]

/-- Each result of a list is one of an item. -/
theorem exists_of_mapM_eq_ok {f : α → Except ε β} {xs : List α} {ys : List β}
    (h : xs.mapM f = .ok ys) : ∀ y ∈ ys, ∃ x ∈ xs, f x = .ok y :=
  exists_of_forall₂ (mapM_eq_ok.mp h).flip

/-- What every result has of its item, the results have of the items in their order. -/
theorem map_eq_of_mapM {f : α → Except ε β} {g : β → γ} {k : α → γ} {xs : List α} {ys : List β}
    (h : xs.mapM f = .ok ys) (hf : ∀ x ∈ xs, ∀ y, f x = .ok y → g y = k x) :
    ys.map g = xs.map k := by
  induction mapM_eq_ok.mp h with
  | nil => rfl
  | @cons x y xs ys hxy hrest ih =>
    rw [List.map_cons, List.map_cons, hf x List.mem_cons_self y hxy,
      ih (mapM_eq_ok.mpr hrest) fun z hz => hf z (List.mem_cons_of_mem _ hz)]

/-- A list fails with the error of the first item that fails. -/
theorem mapM_eq_error {f : α → Except ε β} {xs : List α} {e : ε} :
    xs.mapM f = .error e ↔ ∃ before x after, xs = before ++ x :: after ∧
      (∀ y ∈ before, ∃ z, f y = .ok z) ∧ f x = .error e := by
  induction xs with
  | nil => simp [List.mapM_nil, pure, Except.pure]
  | cons x xs ih =>
    rw [List.mapM_cons, bind_eq_error]
    constructor
    · rintro (h | ⟨y, hy, h⟩)
      · exact ⟨[], x, xs, rfl, by simp, h⟩
      -- The first item gives its result, so the failure lies among the others.
      · rw [bind_eq_error] at h
        rcases h with h | ⟨ys, -, h⟩
        · obtain ⟨before, bad, after, hxs, hbefore, hbad⟩ := ih.mp h
          refine ⟨x :: before, bad, after, by rw [hxs, List.cons_append], ?_, hbad⟩
          intro z hz
          rcases List.mem_cons.mp hz with rfl | hz
          · exact ⟨y, hy⟩
          · exact hbefore z hz
        · cases h
    · rintro ⟨before, bad, after, hxs, hbefore, hbad⟩
      cases before with
      | nil =>
        cases hxs
        exact .inl hbad
      | cons first before =>
        cases hxs
        obtain ⟨y, hy⟩ := hbefore x List.mem_cons_self
        refine .inr ⟨y, hy, bind_eq_error.mpr (.inl (ih.mpr ⟨before, bad, after, rfl, ?_, hbad⟩))⟩
        exact fun z hz => hbefore z (List.mem_cons_of_mem _ hz)

section

variable {f : α → Except ε Bool} {xs : List α}

/-- A search passes over what is known not to be looked for. -/
theorem findM?_filter {p : α → Bool} (h : ∀ x ∈ xs, p x = false → f x = .ok false) :
    (xs.filter p).findM? f = xs.findM? f := by
  induction xs with
  | nil => rfl
  | cons x xs ih =>
    rw [List.forall_mem_cons] at h
    cases hp : p x with
    | true =>
      rw [List.filter_cons_of_pos hp, List.findM?, List.findM?, ih h.2]
    | false =>
      rw [List.filter_cons_of_neg (by simp [hp]), List.findM?, h.1 hp, ok_bind, ih h.2]

/-- A search finds the first item that is looked for, if it gets that far. -/
theorem findM?_eq_some {x : α} :
    xs.findM? f = .ok (some x) ↔ ∃ before after, xs = before ++ x :: after ∧
      (∀ y ∈ before, f y = .ok false) ∧ f x = .ok true := by
  induction xs with
  | nil => simp [List.findM?, pure, Except.pure]
  | cons first xs ih =>
    rw [List.findM?, bind_eq_ok]
    constructor
    · rintro ⟨found, hfound, h⟩
      cases found with
      | true =>
        cases h
        exact ⟨[], xs, rfl, nofun, hfound⟩
      | false =>
        obtain ⟨before, after, rfl, hbefore, hx⟩ := ih.mp h
        exact ⟨first :: before, after, rfl, List.forall_mem_cons.mpr ⟨hfound, hbefore⟩, hx⟩
    · rintro ⟨_ | ⟨_, before⟩, after, hsplit, hbefore, hx⟩
      · cases hsplit
        exact ⟨true, hx, rfl⟩
      · cases hsplit
        rw [List.forall_mem_cons] at hbefore
        exact ⟨false, hbefore.1, ih.mpr ⟨before, after, rfl, hbefore.2, hx⟩⟩

end

/-- Where what becomes of each item is what it gave before, further worked on, so are the
results. -/
theorem mapM_map_eq {f : α → Except ε β} {g : α → α} {k : β → β} {xs : List α}
    (h : ∀ x ∈ xs, f (g x) = (f x).map k) :
    (xs.map g).mapM f = (xs.mapM f).map (List.map k) := by
  induction xs with
  | nil => rfl
  | cons x xs ih =>
    rw [List.map_cons, List.mapM_cons, List.mapM_cons, h x List.mem_cons_self,
      ih fun y hy => h y (List.mem_cons_of_mem _ hy)]
    cases f x with
    | error e => rfl
    | ok y => cases xs.mapM f <;> rfl

/-- A list fails as its items do. -/
theorem failsWith_mapM {Q : ε → Prop} {f : α → Except ε β} {xs : List α}
    (h : ∀ x ∈ xs, FailsWith Q (f x)) : FailsWith Q (xs.mapM f) := by
  intro e he
  obtain ⟨before, x, after, rfl, -, hx⟩ := mapM_eq_error.mp he
  exact h x (by simp) e hx

end LabelLayout
