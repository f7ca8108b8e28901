import LabelLayout.Proofs.Print.Advice
import Mathlib.Tactic.Linarith

/-!
# `LabelLayout.Proofs.Print.Resolution`: a label at a higher resolution

What a scan code encodes to does not depend on the resolution it is printed at
(`Element.Keeps.encoded_eq`): neither whether it is refused nor how many modules it has. What
depends on it are the pixels of its sides, and the pixels of a side that has any do not become
fewer as the resolution grows (`Print.le_floor_of_le`). A side that is negative, or too short
for a pixel, has modules of less than two pixels anyway.

So, over the rationals, an element that the check does not warn of as a scan code at some
resolution is one that it does not warn of at any higher one. `Print.readable_of_le` is the
main statement. It also says that the label is compiled and checked through at the higher
resolution if it is at the lower one, with the same values refused.
-/

set_option autoImplicit false

namespace LabelLayout

/-! ### Values -/

namespace Print

section

variable {α : Type} [Scalar α] {d : Document α} {dpi : α} {p : PrintDocument α}
  [Barcode.Qr.Package]

/-- The look at a scan code tells a refusal when that is what encoding comes to. -/
theorem refused_mem_scanWarnings_iff {e : Element α} {list : List (Warning α)}
    (h : scanWarnings dpi e = .ok list) {id : String} {refusal : Barcode.Refusal} :
    .refused id refusal ∈ list ↔ id = e.id ∧ e.encoded = .error (.refused refusal) := by
  rw [scanWarnings_eq] at h
  split at h
  · next hencoded =>
    cases h
    rw [hencoded]
    simp [eq_comm]
  · cases h
  · next hencoded =>
    cases h
    simp [hencoded]
  · next modules hencoded =>
    obtain ⟨pixels, -, h⟩ := bind_eq_ok.mp h
    rw [hencoded]
    split at h <;> cases h <;> simp

/-- The check tells a refusal of the visible elements with a value that is refused. The
resolution has no part in it. -/
theorem refused_mem_warnings_iff {ws : List (Warning α)} (hp : d.compile dpi = .ok p)
    (hws : warnings p = .ok ws) {id : String} {refusal : Barcode.Refusal} :
    .refused id refusal ∈ ws ↔
      ∃ e ∈ d.elements, e.isVisible = true ∧ id = e.id ∧ e.encoded = .error (.refused refusal) := by
  have hlook {e c : Element α} {list : List (Warning α)} (hc : e.compile d.size dpi = .ok c)
      (h : elementWarnings p c = .ok list) :
      .refused id refusal ∈ list ↔ id = e.id ∧ e.encoded = .error (.refused refusal) := by
    obtain ⟨scan, edge, hscan, hedge, rfl⟩ := elementWarnings_eq_ok.mp h
    have hkeeps := Element.keeps_of_compile hc
    rw [← hkeeps.id, ← hkeeps.encoded_eq, ← refused_mem_scanWarnings_iff hscan, List.mem_append]
    exact or_iff_left fun hmem => nomatch eq_pastEdge_of_mem_edgeWarnings hedge hmem
  constructor
  · intro h
    obtain ⟨e, he, hvisible, -, c, list, hc, hlist, hmem⟩ := exists_of_mem_warnings hp hws h
    exact ⟨e, he, hvisible, (hlook hc hlist).mp hmem⟩
  · rintro ⟨e, he, hvisible, hrefused⟩
    obtain ⟨c, -, hc⟩ := exists_of_forall₂ (Document.forall₂_printable hp) e
      (List.mem_filter.mpr ⟨he, hvisible⟩)
    obtain ⟨list, hlist, hamong⟩ := exists_elementWarnings hp hws he hvisible hc
    exact hamong _ ((hlook hc hlist).mpr hrefused)

/-- No warning under the id is about the data of a code or the size of its modules. -/
def Readable (ws : List (Warning α)) (id : String) : Prop :=
  ∀ w ∈ ws, w.id = id → w.isOfScan = false

instance (ws : List (Warning α)) (id : String) : Decidable (Readable ws id) :=
  inferInstanceAs (Decidable (∀ w ∈ ws, w.id = id → w.isOfScan = false))

end

end Print

/-! ### Sides -/

namespace Print

variable {r s : Rat}

/-- A length that has pixels has no fewer of them at a higher resolution. -/
theorem le_floor_of_le {length : Rat} {n : Nat} (hr : 0 < r) (hle : r ≤ s) (hn : 0 < n)
    (h : (n : Rat) ≤ (⌊length * r + 1 / 2⌋ : Int)) : (n : Rat) ≤ (⌊length * s + 1 / 2⌋ : Int) := by
  have hone : (1 : Rat) ≤ n := by exact_mod_cast hn
  have hpixels : (n : Rat) ≤ length * r + 1 / 2 := h.trans (Int.floor_le _)
  -- What has a pixel is not negative, and so grows with the resolution.
  have hpos : 0 < length * r := by linarith
  have hlength : 0 < length := pos_of_mul_pos_left hpos hr.le
  have hgrows : length * r ≤ length * s := mul_le_mul_of_nonneg_left hle hlength.le
  have hfloor : (n : Int) ≤ ⌊length * s + 1 / 2⌋ := by
    rw [Int.le_floor, Int.cast_natCast]
    linarith
  exact_mod_cast hfloor

/-- Modules are small unless both sides have two pixels for each. -/
theorem moduleWarnings_rat {modules : Nat} (hmodules : 0 < modules) (dpi : Rat)
    (e : Element Rat) :
    ∃ list, moduleWarnings dpi modules e = .ok list ∧
      (list = [] ↔ ((2 * modules : Nat) : Rat) ≤ e.frame.width ∧
        ((2 * modules : Nat) : Rat) ≤ e.frame.height) := by
  have hpos : (0 : Rat) < modules := by exact_mod_cast hmodules
  have hpixels : Scalar.div (Scalar.min e.frame.width e.frame.height)
      (Scalar.constant modules 1) = .ok ((e.frame.width ⊓ e.frame.height) / modules) := by
    rw [Scalar.min_rat, Scalar.constant_rat, Int.cast_natCast, Nat.cast_one, div_one,
      Scalar.div_rat hpos.ne']
  have hsmall : Scalar.lt ((e.frame.width ⊓ e.frame.height) / modules)
      (Scalar.ofInt minModulePixels) = false ↔ ((2 * modules : Nat) : Rat) ≤ e.frame.width ∧
        ((2 * modules : Nat) : Rat) ≤ e.frame.height := by
    rw [Scalar.lt_rat, decide_eq_false_iff_not, not_lt, le_div_iff₀ hpos, ← le_inf_iff]
    simp [minModulePixels]
  rw [← hsmall]
  simp only [moduleWarnings, hpixels, ok_bind]
  cases Scalar.lt ((e.frame.width ⊓ e.frame.height) / modules)
      (Scalar.ofInt minModulePixels) with
  | true => exact ⟨_, rfl, by simp⟩
  | false => exact ⟨_, rfl, by simp⟩

end Print

/-! ### Elements -/

section

variable {size : LabelSize Rat} {r s : Rat} {e c : Element Rat}

open Print

/-- Every element has a box. -/
theorem Element.exists_bounds_rat (e : Element Rat) : ∃ b, e.bounds = .ok b := by
  obtain ⟨frame, body⟩ := e
  cases body <;> exact ⟨_, rfl⟩

section

variable [Barcode.Qr.Package] [Barcode.Qr.LawfulPackage]
  {c' : Element Rat} (hr : 0 < r) (hle : r ≤ s) (hc : e.compile size r = .ok c)
  (hc' : e.compile size s = .ok c')

include hr hle hc hc'

/-- The modules of a code that are large enough at some resolution are so at a higher one. -/
theorem Print.exists_moduleWarnings_of_le {modules : Nat}
    (hencoded : e.encoded = .ok (some modules)) {list : List (Warning Rat)}
    (h : moduleWarnings r modules c = .ok list) :
    ∃ list', moduleWarnings s modules c' = .ok list' ∧ (list = [] → list' = []) := by
  have hpos := Element.pos_of_encoded hencoded
  obtain ⟨frame, body⟩ := e
  have hline : body.kind ≠ .line := Element.ne_line_of_encoded hencoded
  rw [Element.compile_box hline] at hc hc'
  obtain ⟨_, -, rfl⟩ := map_eq_ok.mp hc
  obtain ⟨_, -, rfl⟩ := map_eq_ok.mp hc'
  obtain ⟨_, hlist, hnil⟩ := moduleWarnings_rat hpos r _
  cases hlist.symm.trans h
  obtain ⟨list', hlist', hnil'⟩ := moduleWarnings_rat hpos s _
  refine ⟨list', hlist', fun hempty => hnil'.mpr ?_⟩
  obtain ⟨hwidth, hheight⟩ := hnil.mp hempty
  have htwo : 0 < 2 * modules := by omega
  exact ⟨le_floor_of_le hr hle htwo hwidth, le_floor_of_le hr hle htwo hheight⟩

/-- The look at a compiled element at a higher resolution has no more to say of it as a scan
code. -/
theorem Print.exists_scanWarnings_of_le {list : List (Warning Rat)}
    (h : scanWarnings r c = .ok list) :
    ∃ list', scanWarnings s c' = .ok list' ∧ (list = [] → list' = []) := by
  rw [scanWarnings_eq, (Element.keeps_of_compile hc).encoded_eq] at h
  rw [scanWarnings_eq, (Element.keeps_of_compile hc').encoded_eq]
  split at h
  · cases h
    exact ⟨_, rfl, nofun⟩
  · cases h
  · exact ⟨[], rfl, fun _ => rfl⟩
  · next modules hencoded => exact exists_moduleWarnings_of_le hr hle hc hc' hencoded h

/-- Where nothing that is said of it is about scanning, nothing is at a higher resolution. -/
theorem Print.exists_elementWarnings_of_le {p q : PrintDocument Rat} (hp : p.dpi = r)
    (hq : q.dpi = s) {list : List (Warning Rat)} (h : elementWarnings p c = .ok list) :
    ∃ list', elementWarnings q c' = .ok list' ∧
      ((∀ w ∈ list, w.isOfScan = false) → ∀ w ∈ list', w.isOfScan = false) := by
  obtain ⟨scan, edge, hscan, -, rfl⟩ := elementWarnings_eq_ok.mp h
  obtain ⟨scan', hscan', hnil⟩ := exists_scanWarnings_of_le hr hle hc hc' (hp ▸ hscan)
  obtain ⟨b, hb⟩ := c'.exists_bounds_rat
  have h' : elementWarnings q c' = .ok _ :=
    elementWarnings_eq_ok.mpr ⟨_, _, hq.symm ▸ hscan', edgeWarnings_of_bounds hb .., rfl⟩
  refine ⟨_, h', fun hquiet w hw => ?_⟩
  -- A warning of the first look would be about scanning, so there is none.
  have hempty : scan = [] := List.eq_nil_iff_forall_not_mem.mpr fun w hw => by
    have hof := (spec_of_mem_scanWarnings hscan hw).2
    rw [hquiet w (List.mem_append_left _ hw)] at hof
    cases hof
  obtain rfl := hnil hempty
  rw [eq_pastEdge_of_mem_elementWarnings (hq.symm ▸ hscan') h' hw]
  rfl

end

end

/-! ### Documents -/

namespace Print

variable {d : Document Rat} {r s : Rat} {p q : PrintDocument Rat} {ws : List (Warning Rat)}

/-- A label that is compiled at some resolution is compiled at any. -/
theorem exists_compile_rat (hp : d.compile r = .ok p) (s : Rat) :
    ∃ q, d.compile s = .ok q :=
  Document.exists_compile_rat_iff.mpr (Document.exists_compile_rat_iff.mp ⟨p, hp⟩)

section

variable [Barcode.Qr.Package] [Barcode.Qr.LawfulPackage]

/-- Each visible element is looked at as it is at the one resolution and as it is at the other. -/
theorem exists_looks_of_le (hr : 0 < r) (hle : r ≤ s) (hp : d.compile r = .ok p)
    (hws : warnings p = .ok ws) (hq : d.compile s = .ok q) {e : Element Rat} (he : e ∈ d.elements)
    (hvisible : e.isVisible = true) :
    ∃ c list, e.compile d.size s = .ok c ∧ elementWarnings q c = .ok list ∧
      (Readable ws e.id → ∀ w ∈ list, w.isOfScan = false) := by
  have hprintable := List.mem_filter.mpr ⟨he, hvisible⟩
  obtain ⟨c, -, hc⟩ := exists_of_forall₂ (Document.forall₂_printable hp) e hprintable
  obtain ⟨c', -, hc'⟩ := exists_of_forall₂ (Document.forall₂_printable hq) e hprintable
  obtain ⟨list, hlist, hamong⟩ := exists_elementWarnings hp hws he hvisible hc
  obtain ⟨list', hlist', hquiet⟩ := exists_elementWarnings_of_le hr hle hc hc'
    (Document.compile_eq_ok.mp hp).1 (Document.compile_eq_ok.mp hq).1 hlist
  refine ⟨c', list', hc', hlist', fun h => hquiet fun w hw => h w (hamong w hw) ?_⟩
  exact (id_of_mem_elementWarnings hlist hw).trans (Element.keeps_of_compile hc).id

/-- A higher resolution does not make a scan code any less readable, over the rationals. When a
label is compiled and checked through at some resolution, so it is at a higher one. The check
then refuses the values that it refused, and an element without a warning about its data or
about the size of its modules is still without one. -/
theorem readable_of_le (hr : 0 < r) (hle : r ≤ s) (hp : d.compile r = .ok p)
    (hws : warnings p = .ok ws) :
    ∃ q vs, d.compile s = .ok q ∧ warnings q = .ok vs ∧
      (∀ id refusal, .refused id refusal ∈ vs ↔ .refused id refusal ∈ ws) ∧
      ∀ id, Readable ws id → Readable vs id := by
  obtain ⟨q, hq⟩ := exists_compile_rat hp s
  obtain ⟨vs, hvs⟩ : ∃ vs, warnings q = .ok vs := by
    rw [warnings_eq hq]
    refine exists_bind (exists_mapM fun e he => ?_) fun _ _ => ⟨_, rfl⟩
    obtain ⟨he, hvisible⟩ := List.mem_filter.mp he
    obtain ⟨c, list, hc, hlist, -⟩ := exists_looks_of_le hr hle hp hws hq he hvisible
    exact ⟨list, by rw [hc, ok_bind, hlist]⟩
  refine ⟨q, vs, hq, hvs, fun id refusal => ?_, fun id hreadable w hw hid => ?_⟩
  · rw [refused_mem_warnings_iff hp hws, refused_mem_warnings_iff hq hvs]
  · obtain ⟨e, he, hvisible, hide, c, list, hc, hlist, hmem⟩ := exists_of_mem_warnings hq hvs hw
    obtain ⟨c', list', hc', hlist', hquiet⟩ := exists_looks_of_le hr hle hp hws hq he hvisible
    cases hc.symm.trans hc'
    cases hlist.symm.trans hlist'
    exact hquiet (fun u hu hue => hreadable u hu (hue.trans (hide.symm.trans hid))) w hmem

end

/-- Two QR codes on a label of two inches by one, the second a tenth of an inch wide. -/
def codes : Document Rat where
  size := ⟨.str "2×1", 2, 1, .custom⟩
  elements := [
    ⟨⟨"code", 10, 10, 25, 50, 0, .bool false, .bool true⟩,
      .qrcode ⟨"LOT-7", .medium, .bool false, none⟩⟩,
    ⟨⟨"tiny", 60, 10, 5, 50, 0, .bool false, .bool true⟩,
      .qrcode ⟨"LOT-7", .medium, .bool false, none⟩⟩]
  settings := ⟨5, .bool false, .bool true, .inches⟩

/-- At 203 dots per inch the check warns of the narrow code only. At 600 it does not warn of the
other one either. -/
theorem readable_of_le_codes :
    ∃ p ws q vs, codes.compile 203 = .ok p ∧ warnings p = .ok ws ∧ codes.compile 600 = .ok q ∧
      warnings q = .ok vs ∧ ¬ Readable ws "tiny" ∧ Readable ws "code" ∧ Readable vs "code" := by
  have hwarnings : (codes.compile 203 >>= warnings) = .ok [.smallModules "tiny" (20 / 21) 203] := by
    decide +kernel
  obtain ⟨p, hp, hws⟩ := bind_eq_ok.mp hwarnings
  have hcode : Readable [Warning.smallModules "tiny" (20 / 21 : Rat) 203] "code" := by decide
  obtain ⟨q, vs, hq, hvs, -, hreadable⟩ :=
    readable_of_le (s := 600) (by decide) (by decide) hp hws
  exact ⟨p, _, q, vs, hp, hws, hq, hvs, by decide, hcode, hreadable "code" hcode⟩

end Print

end LabelLayout
