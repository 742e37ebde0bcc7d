import Mathlib.Data.Nat.Digits.Lemmas
import Mathlib.Tactic.IntervalCases
import SimulatedLinux.Printf.Output

/-! # Numbers

`printi` makes the digits of a number from the last to the first, in front of a terminator at the
end of its buffer. The buffer is large enough for every number of 32 bits with its sign.
-/

namespace SimulatedLinux.Printf

open Lib

variable {P P' : Printer} {limit fuel width b letbase : Nat} {left zero sg : Bool} {i : BitVec 32}

/-- The character of a digit. -/
def digitByte (letbase t : Nat) : BitVec 8 :=
  BitVec.ofNat 8 ((if 10 ≤ t then t + (letbase - '0'.toNat - 10) else t) + '0'.toNat)

/-- The digits of a number, the first one first. There are none for 0. -/
def numeral (b letbase u : Nat) :
    List (BitVec 8) := (Nat.digits b u).reverse.map (digitByte letbase)

/-- The text of a number. A minus sign comes before padding zeros. -/
def number (b : Nat) (sg : Bool) (letbase : Nat) (left zero : Bool) (width : Nat) (i : BitVec 32) :
    List (BitVec 8) :=
  if i = 0 then padded left zero width [char '0']
  else if sg && b = 10 && i.slt 0 then
    if width ≠ 0 ∧ zero then char '-' :: padded left zero (width - 1) (numeral b letbase (-i).toNat)
    else padded left zero width (char '-' :: numeral b letbase (-i).toNat)
  else padded left zero width (numeral b letbase i.toNat)

theorem mem_set_printBuf (P : Printer) (s : Nat) (c : BitVec 8) :
    (P.set ⟨.printBuf, s⟩ c).mem .printBuf = Function.update (P.mem .printBuf) s c :=
  P.mem_set_self ⟨.printBuf, s⟩ c

/-- A character is put in front of what stands in the buffer. -/
theorem spells_set {s : Nat} {c : BitVec 8} {text : List (BitVec 8)}
    (h : Spells (P.mem .printBuf) (s + 1) text) :
    Spells ((P.set ⟨.printBuf, s⟩ c).mem .printBuf) s (c :: text) := by
  rw [mem_set_printBuf]
  refine ⟨Function.update_self .., h.congr fun x hlow _ => ?_⟩
  exact Function.update_of_ne (by omega) ..

theorem numeral_of_pos (hb : 1 < b) {u : Nat} (hu : 0 < u) :
    numeral b letbase u = numeral b letbase (u / b) ++ [digitByte letbase (u % b)] := by
  unfold numeral
  rw [Nat.digits_def' hb hu, List.reverse_cons, List.map_append]
  rfl

theorem length_numeral_le (hb : 10 ≤ b) {u : Nat} (hu : u < 2 ^ 32) :
    (numeral b letbase u).length ≤ 10 := by
  have hpow : u < b ^ 10 := by
    calc u < 2 ^ 32 := hu
      _ ≤ 10 ^ 10 := by decide
      _ ≤ b ^ 10 := Nat.pow_le_pow_left hb 10
  rw [numeral, List.length_map, List.length_reverse]
  exact (Nat.digits_length_le_iff (by omega) u).mpr hpow

theorem digitByte_ne_zero (hletbase : letbase = 'a'.toNat ∨ letbase = 'A'.toNat) {t : Nat}
    (ht : t < 16) :
    digitByte letbase t ≠ 0 := by
  rcases hletbase with rfl | rfl
  · interval_cases t <;> decide
  · interval_cases t <;> decide

theorem numeral_ne_zero (hb : 1 < b) (hsmall : b ≤ 16)
    (hletbase : letbase = 'a'.toNat ∨ letbase = 'A'.toNat) {u : Nat} :
    ∀ c ∈ numeral b letbase u, c ≠ 0 := by
  intro c hc
  obtain ⟨t, ht, rfl⟩ := List.mem_map.mp hc
  have hlt := Nat.digits_lt_base hb (List.mem_reverse.mp ht)
  exact digitByte_ne_zero hletbase (by omega)

/-- The digits are put in front of what stands at `s`. -/
theorem digits_eq (hb : 1 < b) (P : Printer) {s u : Nat} {text : List (BitVec 8)} (limit : Nat)
    (hroom : (numeral b letbase u).length ≤ s) (hfuel : (numeral b letbase u).length < fuel)
    (hspelled : Spells (P.mem .printBuf) s text) :
    ∃ P', Printer.digits b letbase fuel P s u = some (P', s - (numeral b letbase u).length) ∧
      Spells (P'.mem .printBuf) (s - (numeral b letbase u).length) (numeral b letbase u ++ text) ∧
      Prints limit P P' [] := by
  -- the last digit is written first, in front of what is in the buffer
  induction u using Nat.strongRecOn generalizing P s text fuel with
  | ind u ih =>
    obtain ⟨fuel, rfl⟩ : ∃ k, fuel = k + 1 := ⟨fuel - 1, by omega⟩
    rcases Nat.eq_zero_or_pos u with rfl | hu
    · refine ⟨P, ?_, ?_, .refl limit P⟩
      · simp [Printer.digits, numeral]
      · simpa [numeral] using hspelled
    · rw [numeral_of_pos hb hu, List.length_append, List.length_singleton] at hroom hfuel ⊢
      obtain ⟨s, rfl⟩ : ∃ k, s = k + 1 := ⟨s - 1, by omega⟩
      have hset := spells_set (c := digitByte letbase (u % b)) hspelled
      have hlt : u / b < u := Nat.div_lt_self hu hb
      have hroom' : (numeral b letbase (u / b)).length ≤ s := by omega
      have hfuel' : (numeral b letbase (u / b)).length < fuel := by omega
      obtain ⟨P', hdigits, hspells, hprints⟩ := ih (u / b) hlt _ hroom' hfuel' hset
      have hend : s + 1 - ((numeral b letbase (u / b)).length + 1) =
          s - (numeral b letbase (u / b)).length := by omega
      rw [hend]
      refine ⟨P', ?_, ?_, ?_⟩
      · rw [Printer.digits, if_pos (Nat.pos_iff_ne_zero.mp hu)]
        exact hdigits
      · rw [List.append_assoc]
        exact hspells
      · have hlocal := (Prints.refl limit P).local_ (p := ⟨.printBuf, s⟩)
          (c := digitByte letbase (u % b)) (by simp) (by simp)
        exact hlocal.trans hprints

/-- `printi` prints the number, and its digits stay in the buffer. -/
theorem printi_prints (P : Printer) (hb : b = 10 ∨ b = 16)
    (hletbase : letbase = 'a'.toNat ∨ letbase = 'A'.toNat) (sg left zero : Bool) (width limit : Nat)
    (i : BitVec 32) (hfuel : printBufLen < fuel) :
    ∃ P', P.printi fuel i b sg width (padBits left zero) letbase limit =
        some (P', (number b sg letbase left zero width i).length) ∧
      Prints limit P P' (number b sg letbase left zero width i) := by
  have hbase : 10 ≤ b ∧ 1 < b ∧ b ≤ 16 := by omega
  -- what is in the buffer is printed into its field
  have hfield {Q : Printer} {s : Nat} {out text : List (BitVec 8)} (width : Nat)
      (hQ : Prints limit P Q out) (hspelled : Spells (Q.mem .printBuf) s (text ++ [0]))
      (hnonzero : ∀ c ∈ text, c ≠ 0) (hlength : text.length < fuel) :
      ∃ P', Q.prints fuel ⟨.printBuf, s⟩ width (padBits left zero) limit =
        some (P', (padded left zero width text).length) ∧
        Prints limit P P' (out ++ padded left zero width text) := by
    have hstring : IsString Q ⟨.printBuf, s⟩ text := ⟨hspelled, hnonzero⟩
    obtain ⟨P', hprints, hout, -⟩ := prints_prints hstring left zero (by simp) hlength
    exact ⟨P', hprints, hQ.trans hout⟩
  have hset {Q : Printer} {out : List (BitVec 8)} (s : Nat) (c : BitVec 8)
      (hQ : Prints limit P Q out) : Prints limit P (Q.set ⟨.printBuf, s⟩ c) out :=
    hQ.local_ (by simp) (by simp)
  have hstart := Prints.refl limit P
  unfold Printer.printi number
  by_cases hi : i = 0
  · rw [if_pos hi, if_pos hi]
    have hzero : Spells (((P.set ⟨.printBuf, 0⟩ (char '0')).set ⟨.printBuf, 1⟩ 0).mem .printBuf) 0
        ([char '0'] ++ [0]) := by
      simp [mem_set_printBuf, Spells]
    simpa using hfield width (hset 1 0 (hset 0 (char '0') hstart)) hzero (by decide)
      (by simp [printBufLen] at *; omega)
  · rw [if_neg hi, if_neg hi]
    dsimp only
    generalize hneg : (sg && decide (b = 10) && i.slt 0) = neg
    generalize hu : (if neg = true then -i else i).toNat = u
    have hlength : (numeral b letbase u).length ≤ 10 := by
      apply length_numeral_le hbase.1
      rw [← hu]
      exact (if neg = true then -i else i).isLt
    have hnonzero := numeral_ne_zero (u := u) hbase.2.1 hbase.2.2 hletbase
    have hterminated : Spells ((P.set ⟨.printBuf, printBufLen - 1⟩ 0).mem .printBuf)
        (printBufLen - 1) [0] := by
      simp [mem_set_printBuf, Spells]
    have hroom : (numeral b letbase u).length ≤ printBufLen - 1 := Nat.le_trans hlength (by decide)
    have hshort : (numeral b letbase u).length < fuel := by
      simp only [printBufLen] at hfuel
      omega
    obtain ⟨Q, hdigits, hspelled, hQ⟩ :=
      digits_eq hbase.2.1 (P.set ⟨.printBuf, printBufLen - 1⟩ 0) limit hroom hshort hterminated
    have hdone : Prints limit P Q [] := (hset (printBufLen - 1) 0 hstart).trans hQ
    rw [hdigits, Option.bind_some]
    -- the sign is printed before the padding with zeros, and otherwise put in front of the digits
    cases neg with
    | false =>
        obtain rfl : i.toNat = u := hu
        simpa using hfield width hdone hspelled hnonzero hshort
    | true =>
        obtain rfl : (-i).toNat = u := hu
        rw [if_pos rfl, if_pos rfl]
        by_cases hzeros : width ≠ 0 ∧ zero = true
        · have hcode : width ≠ 0 ∧ padBits left zero &&& padZero ≠ 0 :=
            ⟨hzeros.1, (padBits_and left zero).2.mpr hzeros.2⟩
          rw [if_pos hcode, if_pos hzeros]
          obtain ⟨hsign, hregions⟩ := printchar_prints Q (char '-') limit
          have hkept : Spells ((Q.printchar (char '-') limit).mem .printBuf)
              (printBufLen - 1 - (numeral b letbase (-i).toNat).length)
              (numeral b letbase (-i).toNat ++ [0]) := by
            rw [hregions .printBuf (by simp)]
            exact hspelled
          obtain ⟨P', hprints, hout⟩ := hfield (width - 1) (hdone.trans hsign) hkept hnonzero hshort
          refine ⟨P', ?_, by simpa using hout⟩
          rw [hprints, Option.map_some, List.length_cons, Nat.add_comm]
        · have hcode : ¬ (width ≠ 0 ∧ padBits left zero &&& padZero ≠ 0) :=
            fun h => hzeros ⟨h.1, (padBits_and left zero).2.mp h.2⟩
          rw [if_neg hcode, if_neg hzeros]
          obtain ⟨k, hk⟩ : ∃ k, printBufLen - 1 - (numeral b letbase (-i).toNat).length =
              k + 1 := by
            refine ⟨printBufLen - 2 - (numeral b letbase (-i).toNat).length, ?_⟩
            simp only [printBufLen]
            omega
          rw [hk] at hspelled ⊢
          have hnonzero' : ∀ c ∈ char '-' :: numeral b letbase (-i).toNat, c ≠ 0 :=
            List.forall_mem_cons.mpr ⟨by decide, hnonzero⟩
          have hshort' : (char '-' :: numeral b letbase (-i).toNat).length < fuel := by
            rw [List.length_cons]
            simp only [printBufLen] at hfuel
            omega
          simpa using hfield width (hset k (char '-') hdone) (spells_set hspelled) hnonzero' hshort'

end SimulatedLinux.Printf
