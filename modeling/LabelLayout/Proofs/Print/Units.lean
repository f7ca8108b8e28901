import LabelLayout.Print.Compile
import LabelLayout.Proofs.Except
import LabelLayout.Proofs.Number
import LabelLayout.Proofs.Scalar

/-!
# `LabelLayout.Proofs.Print.Units`: where positions and extents come to lie in pixels

A percentage becomes pixels in four roundings: the percentage as a fraction, the inches,
the dots, and the half that is added before the integer part is taken.
`percentToPixels_eq_ok` says what comes out in terms of the units of the operands, and
that nothing else can go wrong than that a rounding overflows.

`IsSide.percentToPixels_mem` bounds the outcome for a percentage from 0 to 100, and
`exists_percentToPixels` says that numbers of ordinary size leave every rounding room.
-/

set_option autoImplicit false

namespace LabelLayout.Print

open Binary64

/-- A half in units. -/
def halfUnits : Nat := nearest oneUnits 2

/-- So many percent of an extent, in units of an inch. -/
def shareUnits (percent extent : Int) : Int :=
  rounded (rounded (percent * oneUnits) (100 * oneUnits) * extent) oneUnits

/-- The units of so many inches in dots. -/
def dotUnits (inches dpi : Int) : Int := rounded (inches * dpi) oneUnits

/-- The whole number of pixels nearest to so many units of a pixel. -/
def wholePixels (units : Int) : Int := rounded (units + halfUnits) 1 / oneUnits

theorem units?_hundred : (ofFraction 100 1).units? = some ((100 * oneUnits : Nat) : Int) := by
  have hself : rounded (100 * oneUnits) 1 = 100 * oneUnits := rounded_int (by decide)
  have hfits : Fits (100 * oneUnits) := (representable_int (by decide)).1
  rw [units?_ofFraction_eq_some, hself]
  exact ⟨hfits, rfl⟩

theorem two_mul_halfUnits : 2 * halfUnits = oneUnits := by
  obtain ⟨part, hone, hdouble⟩ := exists_part
  have hhalf : nearest (2 ^ 19 * part * 2) 2 = 2 ^ 19 * part :=
    nearest_mul_self (hdouble (2 ^ 19) (by decide)) (by decide)
  rw [halfUnits, hone, show 2 ^ 20 * part = 2 ^ 19 * part * 2 by omega, hhalf]
  omega

theorem halfUnits_le : halfUnits ≤ oneUnits := by
  have htwo := two_mul_halfUnits
  omega

theorem units?_half : (ofFraction 1 2).units? = some (halfUnits : Int) := by
  have hrounded : rounded (1 * oneUnits) 2 = halfUnits := by
    rw [Int.one_mul]
    exact rounded_signedUnits false oneUnits 2
  have hfits : Fits halfUnits := by
    refine fits_of_le_int (show 1 ≤ 2 ^ 53 by decide) ?_
    rw [Int.natAbs_natCast, Nat.one_mul]
    exact halfUnits_le
  rw [units?_ofFraction_eq_some, hrounded]
  exact ⟨hfits, rfl⟩

/-- A number is brought to the nearest whole one when it has a double, and that leaves room for a
half. -/
theorem floor_add_half_eq_ok {c : Number} {n : Int} :
    (Scalar.add c (Scalar.constant 1 2) >>= Scalar.floor) = .ok n ↔
      ∃ k, c.IsNear k ∧ Fits (rounded (k + halfUnits) 1) ∧ wholePixels k = n := by
  simp only [Scalar.add, Scalar.constant, Scalar.floor, bind_eq_ok, Number.fraction,
    Number.add_float, Except.ok.injEq]
  constructor
  · rintro ⟨_, ⟨x, hx, rfl⟩, hfloor⟩
    obtain ⟨u, hu, rfl⟩ := floor_eq_ok.mp hfloor
    obtain ⟨k, h, hk, hh, hfits, rfl⟩ := units?_add_eq_some.mp hu
    cases units?_half.symm.trans hh
    exact ⟨k, ⟨x, hx, hk⟩, hfits, rfl⟩
  · rintro ⟨k, ⟨x, hx, hk⟩, hfits, rfl⟩
    refine ⟨_, ⟨x, hx, rfl⟩, floor_eq_ok.mpr ⟨_, ?_, rfl⟩⟩
    exact units?_add_eq_some.mpr ⟨k, _, hk, units?_half, hfits, rfl⟩

/-- Inches and dots per inch make whole pixels when their product has a double and that
leaves room for a half. -/
theorem inchesToPixels_eq_ok {inches dpi : Number} {n : Int} :
    inchesToPixels inches dpi = .ok n ↔ ∃ c k, Number.mul inches dpi = .ok c ∧ c.IsNear k ∧
      Fits (rounded (k + halfUnits) 1) ∧ wholePixels k = n := by
  rw [inchesToPixels, bind_eq_ok]
  simp only [floor_add_half_eq_ok]
  exact exists_congr fun c => exists_and_left.symm

/-- A percentage makes whole pixels when it, the extent and the dots per inch have doubles
and no rounding overflows. -/
theorem percentToPixels_eq_ok {extent dpi percent v : Number} :
    percentToPixels extent dpi percent = .ok v ↔ ∃ p e r, percent.IsNear p ∧ extent.IsNear e ∧
      dpi.IsNear r ∧ Fits (rounded (p * oneUnits) (100 * oneUnits)) ∧ Fits (shareUnits p e) ∧
      Fits (dotUnits (shareUnits p e) r) ∧
      Fits (rounded (dotUnits (shareUnits p e) r + halfUnits) 1) ∧
      v = .int (wholePixels (dotUnits (shareUnits p e) r)) := by
  have hhundred : 0 < 100 * oneUnits := Nat.mul_pos (by decide) oneUnits_pos
  simp only [percentToPixels, designToInches, Scalar.mul, Scalar.div, Scalar.constant,
    Scalar.ofInt, bind_eq_ok, pure_eq_ok, Number.fraction, Number.div_float, Except.ok.injEq,
    inchesToPixels_eq_ok]
  constructor
  · rintro ⟨inches, ⟨_, ⟨x, hx, q, hq, rfl⟩, hinches⟩, n, ⟨c, k, hc, hk, hhalf, rfl⟩, rfl⟩
    rw [Number.float_mul, bind_eq_ok] at hinches
    obtain ⟨w, hw, hinches⟩ := hinches
    cases hinches
    rw [Number.float_mul, bind_eq_ok] at hc
    obtain ⟨y, hy, hc⟩ := hc
    cases hc
    -- What is finite in the end was finite all along.
    obtain ⟨s, r, hs, hr, hdots, rfl⟩ := units?_mul_eq_some.mp (Number.isNear_float.mp hk)
    obtain ⟨f, e, hf, he, hshare, rfl⟩ := units?_mul_eq_some.mp hs
    obtain ⟨z, hz, hunits⟩ := exists_div units?_hundred hhundred x
    cases hq.symm.trans hz
    obtain ⟨p, hp, hfraction, rfl⟩ := (hunits f).mp hf
    exact ⟨p, e, r, ⟨x, hx, hp⟩, ⟨w, hw, he⟩, ⟨y, hy, hr⟩, hfraction, hshare, hdots, hhalf, rfl⟩
  · rintro ⟨p, e, r, ⟨x, hx, hp⟩, ⟨w, hw, he⟩, ⟨y, hy, hr⟩, hfraction, hshare, hdots, hhalf, rfl⟩
    obtain ⟨q, hq, hunits⟩ := exists_div units?_hundred hhundred x
    have hqUnits := (hunits _).mpr ⟨p, hp, hfraction, rfl⟩
    have hinches := units?_mul_eq_some.mpr ⟨_, e, hqUnits, he, hshare, rfl⟩
    have hpixels := units?_mul_eq_some.mpr ⟨_, r, hinches, hr, hdots, rfl⟩
    refine ⟨.float (q.mul w), ⟨_, ⟨x, hx, q, hq, rfl⟩, ?_⟩, _,
      ⟨.float ((q.mul w).mul y), _, ?_, Number.isNear_float.mpr hpixels, hhalf, rfl⟩, rfl⟩
    · rw [Number.float_mul, hw, ok_bind]
    · rw [Number.float_mul, hy, ok_bind]

/-- Pixels are whole. -/
theorem isWhole_of_percentToPixels {extent dpi percent v : Number}
    (h : percentToPixels extent dpi percent = .ok v) : v.IsWhole := by
  obtain ⟨p, e, r, -, -, -, -, -, -, hfits, rfl⟩ := percentToPixels_eq_ok.mp h
  exact ⟨_, rfl, natAbs_ediv_lt hfits.representable⟩

/-! ### On the canvas -/

/-- A share of an extent is at most the extent. -/
theorem shareUnits_le {p e : Int} (h100 : p ≤ 100 * oneUnits) (he0 : 0 ≤ e)
    (he : Representable e.natAbs) : shareUnits p e ≤ e := by
  have hone : (0 : Int) ≤ oneUnits := Int.natCast_nonneg oneUnits
  have honeRep : Representable ((oneUnits : Int)).natAbs := by
    have hrep : Representable (1 * oneUnits : Int).natAbs := representable_int (by decide)
    rwa [Int.one_mul] at hrep
  have hhundred : 0 < 100 * oneUnits := Nat.mul_pos (by decide) oneUnits_pos
  have hhigh : rounded (p * oneUnits) (100 * oneUnits) ≤ oneUnits := by
    have hle : p * oneUnits ≤ oneUnits * ((100 * oneUnits : Nat) : Int) := by
      calc p * oneUnits ≤ 100 * oneUnits * oneUnits := Int.mul_le_mul_of_nonneg_right h100 hone
        _ = oneUnits * ((100 * oneUnits : Nat) : Int) := by
          push_cast
          exact Int.mul_comm _ _
    calc rounded (p * oneUnits) (100 * oneUnits)
        ≤ rounded (oneUnits * ((100 * oneUnits : Nat) : Int)) (100 * oneUnits) :=
          rounded_mono hle _
      _ = oneUnits := rounded_mul_self honeRep hhundred
  calc shareUnits p e ≤ rounded (oneUnits * e) oneUnits :=
        rounded_mono (Int.mul_le_mul_of_nonneg_right hhigh he0) _
    _ = e := by rw [Int.mul_comm, rounded_mul_self he oneUnits_pos]

/-- A share of what is not negative is not. -/
theorem shareUnits_nonneg {p e : Int} (hp : 0 ≤ p) (he : 0 ≤ e) : 0 ≤ shareUnits p e :=
  rounded_nonneg (Int.mul_nonneg (rounded_nonneg (Int.mul_nonneg hp (Int.natCast_nonneg _)) _) he) _

theorem dotUnits_mono {a b r : Int} (h : a ≤ b) (hr : 0 ≤ r) : dotUnits a r ≤ dotUnits b r :=
  rounded_mono (Int.mul_le_mul_of_nonneg_right h hr) _

theorem dotUnits_nonneg {a r : Int} (ha : 0 ≤ a) (hr : 0 ≤ r) : 0 ≤ dotUnits a r :=
  rounded_nonneg (Int.mul_nonneg ha hr) _

theorem wholePixels_mono {a b : Int} (h : a ≤ b) : wholePixels a ≤ wholePixels b :=
  Int.ediv_le_ediv (by exact_mod_cast oneUnits_pos) (rounded_mono (by omega) 1)

theorem wholePixels_nonneg {a : Int} (h : 0 ≤ a) : 0 ≤ wholePixels a :=
  Int.ediv_nonneg (rounded_nonneg (by omega) 1) (Int.natCast_nonneg _)

/-- Pixels within a bound have a nearest whole number within the next one. -/
theorem natAbs_wholePixels_le {m : Int} {bound : Nat} (h : m.natAbs ≤ bound * oneUnits)
    (hbound : bound < 2 ^ 53) : (wholePixels m).natAbs ≤ bound + 1 := by
  have hround : (rounded (m + halfUnits) 1).natAbs ≤ (bound + 1) * oneUnits := by
    refine natAbs_rounded_le Nat.one_pos hbound ?_
    have hhalf := halfUnits_le
    rw [Nat.mul_one, Nat.add_mul, Nat.one_mul]
    omega
  have hone : (0 : Int) < oneUnits := by exact_mod_cast oneUnits_pos
  have hroundInt : ((rounded (m + halfUnits) 1).natAbs : Int) ≤ (bound + 1 : Int) * oneUnits := by
    exact_mod_cast hround
  have hlow : -(bound + 1 : Int) ≤ wholePixels m := by
    refine (Int.le_ediv_iff_mul_le hone).mpr ?_
    rw [Int.neg_mul]
    omega
  have hhigh : wholePixels m ≤ bound + 1 := by
    refine Int.ediv_le_of_le_mul hone ?_
    omega
  omega

/-- A quarter of a pixel is nearest to none, on either side. -/
theorem wholePixels_eq_zero {m : Int} (h : 4 * m.natAbs ≤ oneUnits) : wholePixels m = 0 := by
  obtain ⟨part, hone, hdouble⟩ := exists_part
  have htwo := two_mul_halfUnits
  have hpos := oneUnits_pos
  -- With the half there are three quarters at most.
  have hthree : rounded ((3 * 2 ^ 18 * part : Nat) : Int) 1 = (3 * 2 ^ 18 * part : Nat) :=
    rounded_self (by rw [Int.natAbs_natCast]; exact hdouble (3 * 2 ^ 18) (by decide))
  have hle : rounded (m + halfUnits) 1 ≤ (3 * 2 ^ 18 * part : Nat) := by
    rw [← hthree]
    exact rounded_mono (by omega) 1
  exact Int.ediv_eq_zero_of_lt (rounded_nonneg (by omega) 1) (by omega)

/-- A percentage that is not negative comes to lie at pixels that are not. -/
theorem percentToPixels_nonneg {extent dpi percent v : Number}
    (h : percentToPixels extent dpi percent = .ok v) (hextent : extent.le (.int 0) = false)
    (hdpi : (Number.int 0).lt dpi = true) (hpercent : (Number.int 0).le percent = true) :
    ∃ n : Int, v = .int n ∧ 0 ≤ n := by
  obtain ⟨p, e, r, hp, he, hr, -, -, -, -, rfl⟩ := percentToPixels_eq_ok.mp h
  obtain ⟨u, hu⟩ := he.exists_units
  have he0 := he.nonneg (Number.le_of_not_le hu rfl hextent)
  have hr0 := hr.nonneg (Number.le_of_lt hdpi)
  have hshare := shareUnits_nonneg (hp.nonneg hpercent) he0
  exact ⟨_, rfl, wholePixels_nonneg (dotUnits_nonneg hshare hr0)⟩

/-- A side of a label that is measured in whole pixels, from numbers that are doubles. An
integer that is none is exact where the canvas is measured, and rounded where a percentage is
taken of it. -/
structure IsSide (extent dpi : Number) (canvas : Int) : Prop where
  pixels : inchesToPixels extent dpi = .ok canvas
  extent_isDouble : extent.IsDouble
  dpi_isDouble : dpi.IsDouble
  extent_pos : extent.le (.int 0) = false
  dpi_pos : (Number.int 0).lt dpi = true

section

variable {extent dpi percent : Number} {canvas : Int}

/-- A percentage of at most 100 comes to lie on the canvas. -/
theorem IsSide.percentToPixels_le {n : Int} (hside : IsSide extent dpi canvas)
    (h : percentToPixels extent dpi percent = .ok (.int n))
    (hpercent : ∀ m, percent.IsNear m → m ≤ 100 * oneUnits) : n ≤ canvas := by
  obtain ⟨p, e, r, hp, he, hr, -, -, -, -, hn⟩ := percentToPixels_eq_ok.mp h
  obtain rfl := Number.int.inj hn
  obtain ⟨c, k, hc, hk, -, rfl⟩ := inchesToPixels_eq_ok.mp hside.pixels
  obtain ⟨u, hu⟩ := he.exists_units
  have he0 := he.nonneg (Number.le_of_not_le hu rfl hside.extent_pos)
  have hr0 := hr.nonneg (Number.le_of_lt hside.dpi_pos)
  refine wholePixels_mono ?_
  rw [he.mul hr hside.extent_isDouble hside.dpi_isDouble hc hk]
  exact dotUnits_mono (shareUnits_le (hpercent p hp) he0 he.representable) hr0

/-- A percentage from 0 to 100 comes to lie from 0 to the end of the canvas. -/
theorem IsSide.percentToPixels_mem {v : Number} (hside : IsSide extent dpi canvas)
    (h : percentToPixels extent dpi percent = .ok v) (hlow : (Number.int 0).le percent = true)
    (hhigh : percent.le (.int 100) = true) : ∃ n : Int, v = .int n ∧ 0 ≤ n ∧ n ≤ canvas := by
  obtain ⟨n, rfl, hn⟩ := percentToPixels_nonneg h hside.extent_pos hside.dpi_pos hlow
  exact ⟨n, rfl, hn, hside.percentToPixels_le h fun m hm => hm.le_int (by decide) hhigh⟩

/-- What is not negative and adds up to at most 100 comes to lie on the canvas, each by
itself. -/
theorem IsSide.le_of_add_le {origin length sum : Number} {i k : Int}
    (hside : IsSide extent dpi canvas) (horigin : percentToPixels extent dpi origin = .ok (.int i))
    (hlength : percentToPixels extent dpi length = .ok (.int k))
    (horigin0 : (Number.int 0).le origin = true) (hlength0 : (Number.int 0).le length = true)
    (hsum : Number.add origin length = .ok sum) (hsum100 : sum.le (.int 100) = true) :
    i ≤ canvas ∧ k ≤ canvas := by
  obtain ⟨m, _, _, hm, -⟩ := percentToPixels_eq_ok.mp horigin
  obtain ⟨n, _, _, hn, -⟩ := percentToPixels_eq_ok.mp hlength
  -- What bounds the sum bounds both terms.
  obtain ⟨hm100, hn100⟩ := hm.le_of_add_le hn horigin0 hlength0 hsum (by decide) hsum100
  constructor
  · exact hside.percentToPixels_le horigin fun m' hm' => hm'.unique hm ▸ hm100
  · exact hside.percentToPixels_le hlength fun n' hn' => hn'.unique hn ▸ hn100

end

/-! ### Moderate numbers -/

/-- Below `2 ^ 53` dots there is room for a half. -/
theorem fits_half {k : Int} {bound : Nat} (h : k.natAbs ≤ bound * oneUnits)
    (hbound : bound < 2 ^ 53) : Fits (rounded (k + halfUnits) 1) := by
  refine fits_of_le_int hbound (natAbs_rounded_le Nat.one_pos hbound ?_)
  calc (k + halfUnits).natAbs ≤ k.natAbs + halfUnits := Int.natAbs_add_le k halfUnits
    _ ≤ bound * oneUnits + oneUnits := Nat.add_le_add h halfUnits_le
    _ = (bound + 1) * oneUnits * 1 := by rw [Nat.mul_one, Nat.succ_mul]

/-- A percentage of a million and an extent of a million inches leave room at ten thousand
dots per inch. -/
theorem exists_percentToPixels {extent dpi percent : Number} (hextent : extent.IsWithin 1000000)
    (hdpi : dpi.IsWithin 10000) (hpercent : percent.IsWithin 1000000) :
    ∃ n : Int, percentToPixels extent dpi percent = .ok (.int n) := by
  obtain ⟨p, hp, hpLe⟩ := hpercent.exists_isNear (by decide)
  obtain ⟨e, he, heLe⟩ := hextent.exists_isNear (by decide)
  obtain ⟨r, hr, hrLe⟩ := hdpi.exists_isNear (by decide)
  -- Each step is at most the exact one on the bounds.
  have hfraction : (rounded (p * oneUnits) (100 * oneUnits)).natAbs ≤ 10000 * oneUnits := by
    refine natAbs_rounded_le (Nat.mul_pos (by decide) oneUnits_pos) (by decide) ?_
    calc (p * oneUnits).natAbs = p.natAbs * oneUnits := by rw [Int.natAbs_mul, Int.natAbs_natCast]
      _ ≤ 1000000 * oneUnits * oneUnits := Nat.mul_le_mul_right _ hpLe
      _ = 10000 * oneUnits * (100 * oneUnits) := by rw [Nat.mul_mul_mul_comm, Nat.mul_assoc 1000000]
  have hshare := natAbs_rounded_mul_le hfraction heLe (by decide)
  have hdots := natAbs_rounded_mul_le hshare hrLe (by decide)
  exact ⟨_, percentToPixels_eq_ok.mpr ⟨p, e, r, hp, he, hr, fits_of_le_int (by decide) hfraction,
    fits_of_le_int (by decide) hshare, fits_of_le_int (by decide) hdots,
    fits_half hdots (by decide), rfl⟩⟩

/-- So does an extent by itself. -/
theorem exists_inchesToPixels {inches dpi : Number} (hinches : inches.IsWithin 1000000)
    (hdpi : dpi.IsWithin 10000) : ∃ n, inchesToPixels inches dpi = .ok n := by
  obtain ⟨c, hc, hwithin⟩ := hinches.exists_mul hdpi (by decide) (by decide) (by decide)
  obtain ⟨k, hk, hle⟩ := hwithin.exists_isNear (by decide)
  exact ⟨_, inchesToPixels_eq_ok.mpr ⟨c, k, hc, hk, fits_half hle (by decide), rfl⟩⟩

/-- The pixels of a point are a double. -/
theorem exists_pixelsPerPoint {dpi : Number} (hdpi : dpi.IsWithin 10000) :
    ∃ z, pixelsPerPoint dpi = .ok (.float z) := by
  obtain ⟨_, ⟨x, hx, -⟩, -⟩ := hdpi.exists_isNear (by decide)
  exact Number.exists_div ⟨x, hx⟩ (by decide)

theorem exists_pointsToPixels {points dpi : Number} (hpoints : points.IsWithin 1000000)
    (hdpi : dpi.IsWithin 10000) : ∃ v, pointsToPixels points dpi = .ok v := by
  obtain ⟨z, hz⟩ := exists_pixelsPerPoint hdpi
  obtain ⟨v, hv⟩ := hpoints.exists_mul_float (by decide) z
  exact ⟨v, by rw [pointsToPixels, hz, ok_bind, hv]⟩

/-! ### Over the rationals -/

/-- A percentage is turned into inches, into dots, and rounded. -/
theorem percentToPixels_rat (extent dpi percent : Rat) :
    percentToPixels extent dpi percent =
      .ok (⌊percent / 100 * extent * dpi + 1 / 2⌋ : Int) := by
  simp only [percentToPixels, designToInches, inchesToPixels, Scalar.constant_rat, Int.cast_one,
    Int.cast_ofNat, Nat.cast_one, Nat.cast_ofNat, div_one,
    Scalar.div_rat (b := 100) (by norm_num), ok_bind, Scalar.mul_rat, Scalar.add_rat,
    Scalar.floor_rat, Scalar.ofInt_rat]
  rfl

theorem pixelsPerPoint_rat (dpi : Rat) : pixelsPerPoint dpi = .ok (dpi / 72) := by
  rw [pixelsPerPoint, Scalar.constant_rat, Int.cast_ofNat, Nat.cast_one, div_one,
    Scalar.div_rat (by norm_num)]

theorem pointsToPixels_rat (points dpi : Rat) :
    pointsToPixels points dpi = .ok (points * (dpi / 72)) := by
  rw [pointsToPixels, pixelsPerPoint_rat, ok_bind, Scalar.mul_rat]

end LabelLayout.Print
