import LabelLayout.Proofs.Barcode.Printed
import LabelLayout.Proofs.Binding.Bound
import LabelLayout.Proofs.Print.Hidden

/-!
# `LabelLayout.Proofs.Print.Scannable`: what is filled in can be scanned

A scan code that is bound takes the letters and digits of the value it is bound to, and these
are in the alphabets of Code 128 and of Code 39, in the latter as capitals. So if there is any
letter or digit in the value, the code that is filled in is taken by its symbology, and the
check of the compiled label has nothing to say about its data (`Print.scannable_of_isBoundTo`).
-/

set_option autoImplicit false

namespace LabelLayout

namespace Barcode

open Binding (isScannable)

variable {text : List Char}

theorem toNat_lt_of_isScannable {c : Char} (h : isScannable c = true) : c.toNat < 0x80 := by
  have hranges : isScannable c = (decide (65 ≤ c.val ∧ c.val ≤ 90) ||
      decide (97 ≤ c.val) && decide (c.val ≤ 122) ||
      decide (48 ≤ c.val) && decide (c.val ≤ 57)) := rfl
  rw [hranges] at h
  simp only [Bool.or_eq_true, Bool.and_eq_true, decide_eq_true_eq, UInt32.le_iff_toNat_le] at h
  change (65 ≤ c.toNat ∧ c.toNat ≤ 90 ∨ 97 ≤ c.toNat ∧ c.toNat ≤ 122) ∨
    48 ≤ c.toNat ∧ c.toNat ≤ 57 at h
  omega

/-- A letter or a digit belongs to Code 128, is no blank, and is a capital or a digit of Code 39
when it is upper-cased. -/
theorem alphabets_of_isScannable {c : Char} (h : isScannable c = true) :
    isCode128 c = true ∧ Text.isBlank c = false ∧
      (Text.upperChar c).all isCode39 = true := by
  have hascii := toNat_lt_of_isScannable h
  revert h
  exact Text.of_ascii (P := fun c => isScannable c = true → isCode128 c = true ∧
    Text.isBlank c = false ∧ (Text.upperChar c).all isCode39 = true) (by decide +kernel) hascii

section

variable (hne : text ≠ []) (h : ∀ c ∈ text, isScannable c = true)

include hne h

theorem normalizeCode128_of_isScannable : normalizeCode128 text = .ok text := by
  rw [normalizeCode128_eq_ok]
  exact ⟨rfl, hne, fun c hc => (alphabets_of_isScannable (h c hc)).1⟩

theorem normalizeCode39_of_isScannable : normalizeCode39 text = .ok (Text.upper text) := by
  have htrim : Text.trim text = text :=
    Text.trim_eq_self fun c hc => (alphabets_of_isScannable (h c hc)).2.1
  rw [normalizeCode39_eq_ok, htrim]
  refine ⟨rfl, ?_, ?_⟩
  · intro hnil
    obtain ⟨c, hc⟩ := List.exists_mem_of_ne_nil text hne
    exact Text.upperChar_ne_nil c (List.flatMap_eq_nil_iff.mp hnil c hc)
  · intro d hd
    obtain ⟨c, hc, hd⟩ := List.mem_flatMap.mp hd
    exact List.all_eq_true.mp (alphabets_of_isScannable (h c hc)).2.2 d hd

end

/-- Code 128 and Code 39 take letters and digits, the latter as capitals. -/
theorem normalize_of_isScannable {value : String} (hne : value ≠ "")
    (h : ∀ c ∈ value.toList, isScannable c = true) :
    normalize .code128 value = .ok value ∧
      normalize .code39 value = .ok (String.ofList (Text.upper value.toList)) := by
  have hchars : value.toList ≠ [] := fun hnil => hne (String.toList_eq_nil_iff.mp hnil)
  constructor
  · rw [normalize, normalizeChars, normalizeCode128_of_isScannable hchars h]
    exact congrArg Except.ok String.ofList_toList
  · rw [normalize, normalizeChars, normalizeCode39_of_isScannable hchars h]
    rfl

/-- A symbology goes by its own name. -/
theorem normalizeAs_name (symbology : Symbology) (value : String) :
    normalizeAs (Choice.name symbology) value = normalize symbology value := by
  have hname : symbologyOf? (Choice.name symbology) = some symbology := by
    cases symbology <;> decide +kernel
  rw [normalizeAs, hname]

end Barcode

namespace Binding

variable {v : Datum}

theorem isScannable_of_mem_scannable {c : Char} (h : c ∈ (scannable v).toList) :
    isScannable c = true := by
  rw [scannable, String.toList_ofList] at h
  exact (List.mem_filter.mp h).2

/-- A value with a letter or a digit has a scannable part. -/
theorem scannable_ne_empty (h : ∃ c ∈ (printed v).toList, isScannable c = true) :
    scannable v ≠ "" := by
  obtain ⟨c, hc, hscannable⟩ := h
  intro hempty
  have hmem : c ∈ (scannable v).toList := by
    rw [scannable, String.toList_ofList]
    exact List.mem_filter.mpr ⟨hc, hscannable⟩
  rw [hempty] at hmem
  cases hmem

/-- A bar code that is bound takes the scannable part of what its path has. -/
theorem resolve_barcode {e : Element Number} {b : BarcodeBody Number} {context : Datum}
    {path : String} (hbody : e.body = .barcode b)
    (hbound : IsBoundTo b.isVariable b.dataField b.value path)
    (hv : resolve context path = some v) :
    e.resolve context = { e with body := .barcode { b with value := scannable v } } := by
  have hfilled : fillCode context (codePath? b.isVariable b.dataField b.value) b.value
      = scannable v := by
    rw [codePath?_eq_some_iff.mpr hbound, fillCode, Option.bind_some, hv]
  rw [Element.resolve, hbody, fillBody, hfilled]

end Binding

namespace Print

open Binding

variable {e : Element Number} {b : BarcodeBody Number} {context v : Datum} {path : String}

/-- The look at a compiled bar code has nothing to say if the symbology takes the value. -/
theorem scanWarnings_of_normalize [Barcode.Qr.Package] {size : LabelSize Number} {dpi : Number}
    {c : Element Number} {printed : String} (hbody : e.body = .barcode b)
    (hprinted : Barcode.normalize b.symbology b.value = .ok printed)
    (hc : e.compile size dpi = .ok c) : scanWarnings dpi c = .ok [] := by
  have hkind : e.kind = .barcode := by rw [Element.kind, hbody]; rfl
  have hkept : c.body = .barcode b := by
    rw [(Element.keeps_of_compile hc).body (.inl hkind), hbody]
  rw [scanWarnings, hkept]
  simp only [hprinted]

/-- What is filled in can be scanned. A bar code in Code 128 or Code 39 that is bound to a path
takes the letters and digits of the value that the context has there. If there are any, its
symbology takes them as they are, or as capitals, and at any resolution the check of the
compiled element says nothing about its data. So the one thing that the check of a label can say
about it is that it runs past the edge. -/
theorem scannable_of_isBoundTo [Barcode.Qr.Package] (hbody : e.body = .barcode b)
    (hsymbology : b.symbology = .code128 ∨ b.symbology = .code39)
    (hbound : IsBoundTo b.isVariable b.dataField b.value path)
    (hv : Binding.resolve context path = some v)
    (hprinted : ∃ c ∈ (printed v).toList, c.isAlphanum = true) :
    e.resolve context = { e with body := .barcode { b with value := scannable v } } ∧
    (b.symbology = .code128 →
      Barcode.normalizeAs "CODE128" (scannable v) = .ok (scannable v)) ∧
    (b.symbology = .code39 → Barcode.normalizeAs "CODE39" (scannable v) =
      .ok (String.ofList (Text.upper (scannable v).toList))) ∧
    (∀ size dpi c, (e.resolve context).compile size dpi = .ok c →
      scanWarnings dpi c = .ok []) ∧
    ∀ d dpi p ws, e ∈ d.elements → d.ids.Nodup →
      Request.print d dpi (some context) = .ok p → warnings p = .ok ws →
        ∀ w ∈ ws, w.id = e.id → w = .pastEdge e.id := by
  have hresolve := resolve_barcode hbody hbound hv
  obtain ⟨h128, h39⟩ := Barcode.normalize_of_isScannable (scannable_ne_empty hprinted)
    fun c hc => isScannable_of_mem_scannable hc
  have htaken : ∃ printed, Barcode.normalize b.symbology (scannable v) = .ok printed := by
    rcases hsymbology with hcode | hcode
    · rw [hcode]
      exact ⟨_, h128⟩
    · rw [hcode]
      exact ⟨_, h39⟩
  have hsilent : ∀ size dpi c, (e.resolve context).compile size dpi = .ok c →
      scanWarnings dpi c = .ok [] := by
    intro size dpi c hc
    obtain ⟨printed, htaken⟩ := htaken
    have hfilled : (e.resolve context).body = .barcode { b with value := scannable v } := by
      rw [hresolve]
    exact scanWarnings_of_normalize hfilled htaken hc
  refine ⟨hresolve, fun _ => ?_, fun _ => ?_, hsilent, ?_⟩
  · exact (Barcode.normalizeAs_name .code128 _).trans h128
  · exact (Barcode.normalizeAs_name .code39 _).trans h39
  · intro d dpi p ws he hids hp hws w hw hid
    obtain ⟨x, -, hrender⟩ := Request.print_eq_ok.mp hp
    obtain ⟨filled, hfilled, -, hidw, c, list, hc, hlist, hw⟩ :=
      exists_of_mem_warnings hrender hws hw
    obtain ⟨e', he', rfl⟩ := List.mem_map.mp hfilled
    -- No other element has this id.
    obtain rfl : e = e' := List.inj_on_of_nodup_map hids he he' (hid.symm.trans hidw)
    have hscan : scanWarnings p.dpi c = .ok [] := by
      rw [(Document.compile_eq_ok.mp hrender).1]
      exact hsilent _ _ _ hc
    have hedge := eq_pastEdge_of_mem_elementWarnings hscan hlist hw
    rwa [(Element.keeps_of_compile hc).id] at hedge

/-- A bar code in Code 39 whose value is a token. -/
def tagged : Element Number where
  frame := ⟨"tag", .int 60, .int 35, .int 70, .int 40, .int 0, .bool false, .bool true⟩
  body := .barcode {
    value := " \x7b\x7b bin.tags \x7d\x7d", symbology := .code39, showText := .bool true
    textPosition := .bottom, isVariable := .bool false, dataField := none }

/-- It is bound to a list, which is printed with blanks, brackets, quotes and a point. What is
left of that is taken in capitals. The code is too wide for its label, and of that the check
warns, but not of its data. -/
theorem scannable_of_isBoundTo_tagged :
    let v : Datum := .list [.bool true, .num (.fraction 1 2), .str "a-7"]
    let context : Datum := .object [("bin", .object [("tags", v)])]
    let d : Document Number := ⟨LabelSize.initial, [tagged], Settings.initial⟩
    printed v = "[True, 0.5, 'a-7']" ∧ scannable v = "True05a7" ∧
      Barcode.normalizeAs "CODE39" (scannable v) = .ok "TRUE05A7" ∧
      ∃ p ws, Request.print d (.num (.int 203)) (some context) = .ok p ∧ warnings p = .ok ws ∧
        ws ≠ [] ∧ ∀ w ∈ ws, w.id = "tag" → w = .pastEdge "tag" := by
  intro v context d
  have hforms : printed v = "[True, 0.5, 'a-7']" ∧ scannable v = "True05a7" := by decide +kernel
  have hbound : IsBoundTo (.bool false) none " \x7b\x7b bin.tags \x7d\x7d" "bin.tags" :=
    codePath?_eq_some_iff.mp (by decide +kernel)
  have hletter : ∃ c ∈ (printed v).toList, c.isAlphanum = true := ⟨'T', by decide +kernel, rfl⟩
  have hv : Binding.resolve context "bin.tags" = some v := by decide +kernel
  have hbody : tagged.body = .barcode _ := rfl
  obtain ⟨-, -, h39, -, hchecked⟩ :=
    scannable_of_isBoundTo hbody (.inr rfl) hbound hv hletter
  have hcheck : (do liftM (warnings (← Request.print d (.num (.int 203)) (some context))) :
      Except Error (List (Warning Number))) = .ok [.pastEdge "tag"] := by
    decide +kernel
  obtain ⟨p, hp, hws⟩ := bind_eq_ok.mp hcheck
  rw [lift_eq_ok] at hws
  refine ⟨hforms.1, hforms.2, ?_, p, _, hp, hws, List.cons_ne_nil _ _, ?_⟩
  · rw [h39 rfl, hforms.2]
    decide +kernel
  · exact hchecked d _ p _ List.mem_cons_self (by decide) hp hws

end Print

end LabelLayout
