import SimulatedLinux.Printf.Print

/-! # What is printed

A text goes out as a whole: it is appended to what the UART got, or it stands in memory as far as
there is room, and no other byte of the memory is changed.
-/

namespace SimulatedLinux.Printf

open Lib

variable {P P' P'' : Printer} {text text' : List (BitVec 8)} {limit fuel width pad : Nat}
  {c : BitVec 8} {p : Ptr}

/-- The part of a text for which there is room from `str` on. -/
def stored (limit str : Nat) (text : List (BitVec 8)) : List (BitVec 8) :=
  if limit = 0 then text else text.take (limit - str)

@[simp] theorem stored_nil (limit str : Nat) : stored limit str [] = [] := by
  simp [stored]

theorem stored_append (limit str : Nat) (text text' : List (BitVec 8)) :
    stored limit str (text ++ text') =
      stored limit str text ++ stored limit (str + (stored limit str text).length) text' := by
  unfold stored
  split
  · rfl
  · have hroom : limit - (str + (text.take (limit - str)).length) = limit - str - text.length := by
      rw [List.length_take]
      omega
    rw [List.take_append, hroom]

namespace Printer

@[simp] theorem str_set (P : Printer) (p : Ptr) (c : BitVec 8) : (P.set p c).str = P.str := rfl

@[simp] theorem uart_set (P : Printer) (p : Ptr) (c : BitVec 8) : (P.set p c).uart = P.uart := rfl

theorem mem_set_self (P : Printer) (p : Ptr) (c : BitVec 8) :
    (P.set p c).mem p.region = Function.update (P.mem p.region) p.offset c :=
  Function.update_self ..

theorem mem_set_of_ne (P : Printer) (p : Ptr) (c : BitVec 8) {r : Region} (h : r ≠ p.region) :
    (P.set p c).mem r = P.mem r := Function.update_of_ne h ..

end Printer

/-- The address is not among those to which the text goes. -/
def Clear (limit : Nat) (P : Printer) (text : List (BitVec 8)) (x : Nat) : Prop :=
  ∀ str, P.str = some str → x < str ∨ str + (stored limit str text).length ≤ x

/-- From `P` to `P'` the text was printed. Arrays on the stack may have changed. -/
structure Prints (limit : Nat) (P P' : Printer) (text : List (BitVec 8)) : Prop where
  uart : P'.uart = if P.str = none then P.uart ++ text else P.uart
  str : P'.str = P.str.map fun str => str + (stored limit str text).length
  spelled : ∀ str, P.str = some str → Spells (P'.mem .ram) str (stored limit str text)
  ram : ∀ x, Clear limit P text x → P'.mem .ram x = P.mem .ram x
  literal : P'.mem .literal = P.mem .literal

theorem Clear.left {x : Nat} (hx : Clear limit P (text ++ text') x) : Clear limit P text x := by
  intro str hstr
  have hout := hx str hstr
  rw [stored_append, List.length_append] at hout
  omega

namespace Prints

theorem refl (limit : Nat) (P : Printer) : Prints limit P P [] := by
  refine ⟨?_, ?_, fun str _ => ?_, fun _ _ => rfl, rfl⟩
  · rw [List.append_nil, ite_self]
  · simp
  · rw [stored_nil]
    trivial

/-- Writing to an array on the stack prints nothing. -/
theorem local_ (h : Prints limit P P' text) (hram : p.region ≠ .ram)
    (hliteral : p.region ≠ .literal) :
    Prints limit P (P'.set p c) text := by
  have hram := P'.mem_set_of_ne p c (Ne.symm hram)
  refine ⟨h.uart, h.str, fun str hstr => ?_, fun x hx => ?_, ?_⟩
  · rw [hram]
    exact h.spelled str hstr
  · rw [hram]
    exact h.ram x hx
  · rw [P'.mem_set_of_ne p c (Ne.symm hliteral), h.literal]

/-- What is clear of the whole text is clear of the rest of it. -/
theorem clear (h : Prints limit P P' text) {x : Nat} (hx : Clear limit P (text ++ text') x) :
    Clear limit P' text' x := by
  intro str' hstr'
  rw [h.str] at hstr'
  obtain ⟨str, hstr, rfl⟩ := Option.map_eq_some_iff.mp hstr'
  have hout := hx str hstr
  rw [stored_append, List.length_append] at hout
  omega

theorem trans (h : Prints limit P P' text) (h' : Prints limit P' P'' text') :
    Prints limit P P'' (text ++ text') := by
  refine ⟨?_, ?_, fun str hstr => ?_, fun x hx => ?_, h'.literal.trans h.literal⟩
  · rw [h'.uart, h.uart, h.str]
    cases P.str with
    | none => simp
    | some str => simp
  · rw [h'.str, h.str]
    cases P.str with
    | none => rfl
    | some str => simp [stored_append, Nat.add_assoc]
  · have hstr' : P'.str = some (str + (stored limit str text).length) := by
      rw [h.str, hstr]
      rfl
    rw [stored_append, Spells.append_iff]
    refine ⟨(h.spelled str hstr).congr fun x hlow hhigh => h'.ram x fun str' hsome => ?_,
      h'.spelled _ hstr'⟩
    obtain rfl := Option.some.inj (hstr'.symm.trans hsome)
    exact .inl hhigh
  · rw [h'.ram x (h.clear hx), h.ram x hx.left]

end Prints

/-- `printchar` prints the character, and changes no other region. -/
theorem printchar_prints (P : Printer) (c : BitVec 8) (limit : Nat) :
    Prints limit P (P.printchar c limit) [c] ∧ ∀ r, r ≠ .ram →
      (P.printchar c limit).mem r = P.mem r := by
  unfold Printer.printchar
  cases hstr : P.str with
  | none =>
      refine ⟨⟨by simp [hstr], by simp [hstr], by simp [hstr], fun _ _ => rfl, rfl⟩, fun _ _ => rfl⟩
  | some str =>
      have hwritten (hroom : stored limit str [c] = [c]) :
          Prints limit P { P.set ⟨.ram, str⟩ c with str := some (str + 1) } [c] ∧
            ∀ r, r ≠ .ram → ({ P.set ⟨.ram, str⟩ c with str := some (str + 1) } : Printer).mem r =
              P.mem r := by
        have hram : (P.set ⟨.ram, str⟩ c).mem .ram = Function.update (P.mem .ram) str c :=
          P.mem_set_self ⟨.ram, str⟩ c
        have hothers {r : Region} (hr : r ≠ .ram) : (P.set ⟨.ram, str⟩ c).mem r = P.mem r :=
          P.mem_set_of_ne ⟨.ram, str⟩ c hr
        refine ⟨⟨by simp [hstr], by simp [hstr, hroom], fun str' hstr' => ?_, fun x hx => ?_,
          hothers (r := .literal) (by decide)⟩, fun r hr => hothers hr⟩
        · obtain rfl := Option.some.inj (hstr.symm.trans hstr')
          rw [hroom]
          refine ⟨?_, trivial⟩
          rw [hram, Function.update_self]
        · have hout := hx str hstr
          rw [hroom, List.length_singleton] at hout
          rw [hram]
          exact Function.update_of_ne (by omega) ..
      dsimp only
      split
      next hlimit => exact hwritten (by simp [stored, hlimit])
      next hlimit =>
        split
        next hlt =>
          apply hwritten
          unfold stored
          rw [if_neg hlimit]
          exact List.take_of_length_le (by rw [List.length_singleton]; omega)
        next hfull =>
          have hnone : stored limit str [c] = [] := by
            unfold stored
            rw [if_neg hlimit, Nat.sub_eq_zero_of_le (by omega), List.take_zero]
          refine ⟨⟨by simp [hstr], by simp [hstr, hnone], fun str' hstr' => ?_, fun _ _ => rfl,
            rfl⟩, fun _ _ => rfl⟩
          obtain rfl := Option.some.inj (hstr.symm.trans hstr')
          rw [hnone]
          trivial

theorem padding_prints (P : Printer) (c : BitVec 8) (limit width : Nat) :
    Prints limit P (Printer.padding c limit width P) (List.replicate width c) ∧
      ∀ r, r ≠ .ram → (Printer.padding c limit width P).mem r = P.mem r := by
  induction width generalizing P with
  | zero => exact ⟨.refl limit P, fun _ _ => rfl⟩
  | succ width ih =>
      obtain ⟨hfirst, hregions⟩ := printchar_prints P c limit
      obtain ⟨hrest, hregions'⟩ := ih (P.printchar c limit)
      refine ⟨hfirst.trans hrest, fun r hr => ?_⟩
      rw [Printer.padding, hregions' r hr, hregions r hr]

/-- A string that can be read at a pointer. -/
structure IsString (P : Printer) (p : Ptr) (text : List (BitVec 8)) : Prop where
  spelled : Spells (P.mem p.region) p.offset (text ++ [0])
  nonzero : ∀ c ∈ text, c ≠ 0

theorem IsString.read_eq (h : IsString P p []) : P.read p = 0 := h.spelled.1

theorem IsString.read_cons (h : IsString P p (c :: text)) :
    P.read p = c ∧ c ≠ 0 ∧ IsString P (p.add 1) text :=
  ⟨h.spelled.1, h.nonzero c (by simp),
    ⟨h.spelled.2, fun d hd => h.nonzero d (List.mem_cons_of_mem _ hd)⟩⟩

/-- A string is the same while nothing is printed to it. -/
theorem IsString.prints {output : List (BitVec 8)} (h : IsString P p text)
    (hprints : Prints limit P P' output)
    (hregions : p.region ≠ .ram → P'.mem p.region = P.mem p.region)
    (hclear : p.region = .ram → ∀ x, p.offset ≤ x → x ≤ p.offset + text.length →
      Clear limit P output x) :
    IsString P' p text := by
  refine ⟨h.spelled.congr fun x hlow hhigh => ?_, h.nonzero⟩
  by_cases hram : p.region = .ram
  · rw [hram]
    rw [List.length_append, List.length_singleton] at hhigh
    exact hprints.ram x (hclear hram x hlow (by omega))
  · rw [hregions hram]

theorem countChars_eq (h : IsString P p text) (hfuel : text.length < fuel) (len : Nat) :
    P.countChars fuel p len = some (len + text.length) := by
  induction text generalizing p fuel len with
  | nil =>
      obtain ⟨fuel, rfl⟩ := Nat.exists_eq_add_of_lt hfuel
      simp [Printer.countChars, h.read_eq]
  | cons c text ih =>
      rw [List.length_cons] at hfuel
      obtain ⟨fuel, rfl⟩ : ∃ k, fuel = k + 1 := ⟨fuel - 1, by omega⟩
      obtain ⟨hread, hne, hrest⟩ := h.read_cons
      rw [Printer.countChars, hread, if_pos hne, ih hrest (by omega), List.length_cons]
      congr 1
      omega

theorem copyChars_prints (h : IsString P p text)
    (hclear : p.region = .ram → ∀ x, p.offset ≤ x → x ≤ p.offset + text.length →
      Clear limit P text x)
    (hfuel : text.length < fuel) (pc : Nat) :
    ∃ P', Printer.copyChars limit fuel P p pc = some (P', pc + text.length) ∧
      Prints limit P P' text ∧
      ∀ r, r ≠ .ram → P'.mem r = P.mem r := by
  -- a character that is printed to memory must not overwrite the rest of the string
  induction text generalizing P p fuel pc with
  | nil =>
      obtain ⟨fuel, rfl⟩ := Nat.exists_eq_add_of_lt hfuel
      exact ⟨P, by simp [Printer.copyChars, h.read_eq], .refl limit P, fun _ _ => rfl⟩
  | cons c text ih =>
      rw [List.length_cons] at hfuel
      obtain ⟨fuel, rfl⟩ : ∃ k, fuel = k + 1 := ⟨fuel - 1, by omega⟩
      obtain ⟨hread, hne, hrest⟩ := h.read_cons
      obtain ⟨hfirst, hregions⟩ := printchar_prints P c limit
      have hclear' (hram : p.region = .ram) (x : Nat) (hlow : p.offset + 1 ≤ x)
          (hhigh : x ≤ p.offset + 1 + text.length) : Clear limit P ([c] ++ text) x := by
        apply hclear hram x (by omega)
        rw [List.length_cons]
        omega
      have hkept : IsString (P.printchar c limit) (p.add 1) text :=
        hrest.prints hfirst (hregions p.region) fun hram x hlow hhigh =>
          (hclear' hram x hlow hhigh).left
      have hshort : text.length < fuel := by omega
      obtain ⟨P', hcopy, hprints, hregions'⟩ :=
        ih hkept (fun hram x hlow hhigh => hfirst.clear (hclear' hram x hlow hhigh)) hshort (pc + 1)
      refine ⟨P', ?_, hfirst.trans hprints, fun r hr => (hregions' r hr).trans (hregions r hr)⟩
      rw [Printer.copyChars, hread, if_pos hne, hcopy, List.length_cons]
      congr 2
      omega

/-! ## Padding -/

/-- A text in a field: filled up on the left, or on the right. -/
def padded (left zero : Bool) (width : Nat) (text : List (BitVec 8)) : List (BitVec 8) :=
  let fill := List.replicate (width - text.length) (if zero then char '0' else char ' ')
  if left then text ++ fill else fill ++ text

/-- The bits of `pad`. -/
def padBits (left zero : Bool) : Nat :=
  (if left then padRight else 0) ||| (if zero then padZero else 0)

theorem padBits_and (left zero : Bool) :
    (padBits left zero &&& padRight = 0 ↔ left = false) ∧
      (padBits left zero &&& padZero ≠ 0 ↔ zero = true) := by
  cases left <;> cases zero <;> decide

/-- `prints` puts the string into its field. -/
theorem prints_prints (h : IsString P p text) (left zero : Bool)
    (hclear : p.region = .ram → ∀ x, p.offset ≤ x → x ≤ p.offset + text.length →
      Clear limit P (padded left zero width text) x)
    (hfuel : text.length < fuel) :
    ∃ P', P.prints fuel p width (padBits left zero) limit =
      some (P', (padded left zero width text).length) ∧
      Prints limit P P' (padded left zero width text) ∧ ∀ r, r ≠ .ram → P'.mem r = P.mem r := by
  obtain ⟨hright, hzero⟩ := padBits_and left zero
  have hjustified : ∃ padchar, (if 0 < width then
        (P.countChars fuel p 0).map fun len =>
          (if width ≤ len then 0 else width - len,
            if padBits left zero &&& padZero ≠ 0 then char '0' else char ' ')
      else some (width, char ' ')) = some (width - text.length, padchar) ∧
      List.replicate (width - text.length) padchar =
        List.replicate (width - text.length) (if zero then char '0' else char ' ') := by
    by_cases hwidth : 0 < width
    · refine ⟨if zero then char '0' else char ' ', ?_, rfl⟩
      have hrest : (if width ≤ text.length then 0 else width - text.length) =
          width - text.length := by
        split <;> omega
      rw [if_pos hwidth, countChars_eq h hfuel, Option.map_some, Nat.zero_add, hrest]
      simp only [hzero]
    · have hnone : width = 0 := by omega
      refine ⟨char ' ', ?_, ?_⟩
      · rw [if_neg hwidth, hnone, Nat.zero_sub]
      · rw [hnone, Nat.zero_sub, List.replicate_zero, List.replicate_zero]
  obtain ⟨padchar, hjustified, hfill⟩ := hjustified
  unfold Printer.prints
  dsimp only
  rw [hjustified, Option.bind_some]
  cases left with
  | false =>
      rw [if_pos (hright.mpr rfl)]
      have htext : padded false zero width text = List.replicate (width - text.length) padchar ++
          text := by
        simp [padded, hfill]
      rw [htext] at hclear ⊢
      obtain ⟨hpad, hregions⟩ := padding_prints P padchar limit (width - text.length)
      have hkept := h.prints hpad (hregions p.region) fun hram x hlow hhigh =>
        (hclear hram x hlow hhigh).left
      obtain ⟨P', hcopy, hprints, hregions'⟩ :=
        copyChars_prints hkept (fun hram x hlow hhigh => hpad.clear (hclear hram x hlow hhigh))
          hfuel (width - text.length)
      refine ⟨P', ?_, hpad.trans hprints, fun r hr => (hregions' r hr).trans (hregions r hr)⟩
      rw [hcopy, List.length_append, List.length_replicate]
  | true =>
      rw [if_neg (fun heq => Bool.noConfusion (hright.mp heq))]
      have htext : padded true zero width text = text ++
          List.replicate (width - text.length) padchar := by
        simp [padded, hfill]
      rw [htext] at hclear ⊢
      obtain ⟨P', hcopy, hprints, hregions⟩ :=
        copyChars_prints h (fun hram x hlow hhigh => (hclear hram x hlow hhigh).left) hfuel 0
      obtain ⟨hpad, hregions'⟩ := padding_prints P' padchar limit (width - text.length)
      refine ⟨_, ?_, hprints.trans hpad, fun r hr => (hregions' r hr).trans (hregions r hr)⟩
      rw [hcopy, Option.map_some, Nat.zero_add, List.length_append, List.length_replicate]

end SimulatedLinux.Printf
