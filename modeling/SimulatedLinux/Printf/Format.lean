import SimulatedLinux.Printf.Number

/-! # Format strings

A format string is a sequence of pieces: characters, percent signs, and directives with their flags,
width and letter. `tiny_print` prints the texts of the pieces one after the other.
-/

namespace SimulatedLinux.Printf

open Lib

/-- A piece of a format string. -/
inductive Piece
  | literal (c : BitVec 8)
  | percent
  | directive (left : Bool) (zeros width : Nat) (letter : BitVec 8)
  deriving DecidableEq, Repr

def isDigit (c : BitVec 8) : Bool := char '0' ≤ c ∧ c ≤ char '9'

namespace Piece

/-- The zeros, the width and the letter of a directive. -/
def body (zeros width : Nat) (letter : BitVec 8) : List (BitVec 8) :=
  List.replicate zeros (char '0') ++ (numeral 10 'a'.toNat width ++ [letter])

/-- The piece as it stands in a format string. -/
def text : Piece → List (BitVec 8)
  | literal c => [c]
  | percent => [char '%', char '%']
  | directive left zeros width letter =>
    char '%' :: ((if left then [char '-'] else []) ++ body zeros width letter)

/-- The pieces that a format string is made of. A width fits in an `int`, and the letter of a
directive is the first character that cannot be read as anything else. Behind a flag or a width a
terminator is read as a letter too. -/
def Proper : Piece → Prop
  | literal c => c ≠ 0 ∧ c ≠ char '%'
  | percent => True
  | directive left zeros width letter => width < intLimit ∧ isDigit letter = false ∧
      (left = false → zeros = 0 → width = 0 → letter ≠ 0 ∧ letter ≠ char '%' ∧ letter ≠ char '-')

instance : DecidablePred Proper := fun piece =>
  match piece with
  | literal c => inferInstanceAs (Decidable (c ≠ 0 ∧ c ≠ char '%'))
  | percent => .isTrue trivial
  | directive left zeros width letter =>
      inferInstanceAs (Decidable (width < intLimit ∧ isDigit letter = false ∧
      (left = false → zeros = 0 → width = 0 → letter ≠ 0 ∧ letter ≠ char '%' ∧ letter ≠ char '-')))

end Piece

def formatText (pieces : List Piece) : List (BitVec 8) := pieces.flatMap Piece.text

/-- "(null)". -/
def nullText : List (BitVec 8) := ['(', 'n', 'u', 'l', 'l', ')'].map char

/-- The letters that take an argument. -/
def conversions : List (BitVec 8) := ['s', 'd', 'x', 'X', 'u', 'c'].map char

/-- What a directive prints of its argument. -/
def field (strings : BitVec 32 → List (BitVec 8)) (left zero : Bool) (width : Nat)
    (letter : BitVec 8) (a : BitVec 32) :
    List (BitVec 8) :=
  if letter = char 's' then padded left zero width (if a ≠ 0 then strings a else nullText)
  else if letter = char 'd' then number 10 true 'a'.toNat left zero width a
  else if letter = char 'x' then number 16 false 'a'.toNat left zero width a
  else if letter = char 'X' then number 16 false 'A'.toNat left zero width a
  else if letter = char 'u' then number 10 false 'a'.toNat left zero width a
  else padded left zero width (if a.setWidth 8 = 0 then [] else [a.setWidth 8])

/-- The text that a format gives with its arguments, or `none` where an argument is missing. -/
def render (strings : BitVec 32 → List (BitVec 8)) :
    List Piece → List (BitVec 32) → Option (List (BitVec 8))
  | [], _ => some []
  | .literal c :: rest, args => (render strings rest args).map fun text => [c] ++ text
  | .percent :: rest, args => (render strings rest args).map fun text => [char '%'] ++ text
  | .directive left zeros width letter :: rest, args =>
      if letter ∈ conversions then
        match args with
        | [] => none
        | a :: args => (render strings rest args).map fun text =>
        field strings left (0 < zeros) width letter a ++ text
      else render strings rest args

/-- The arguments that are printed as strings. -/
def stringArgs : List Piece → List (BitVec 32) → List (BitVec 32)
  | [], _ => []
  | .directive _ _ _ letter :: rest, args =>
      if letter ∈ conversions then
        match args with
        | [] => []
        | a :: args => if letter = char 's' then a :: stringArgs rest args else stringArgs rest args
      else stringArgs rest args
  | _ :: rest, args => stringArgs rest args

section Render

variable {strings : BitVec 32 → List (BitVec 8)} {left : Bool} {zeros width : Nat}
  {letter : BitVec 8} {rest : List Piece} {args : List (BitVec 32)}

theorem render_skip (h : letter ∉ conversions) :
    render strings (.directive left zeros width letter :: rest) args =
      render strings rest args := by
  cases args <;> simp only [render, if_neg h]

theorem render_convert (h : letter ∈ conversions) {text : List (BitVec 8)}
    (hrender : render strings (.directive left zeros width letter :: rest) args = some text) :
    ∃ a args' text', args = a :: args' ∧ render strings rest args' = some text' ∧
      text = field strings left (0 < zeros) width letter a ++ text' := by
  cases args with
  | nil => simp only [render, if_pos h, reduceCtorEq] at hrender
  | cons a args =>
      simp only [render, if_pos h] at hrender
      obtain ⟨text', hrest, htext⟩ := Option.map_eq_some_iff.mp hrender
      exact ⟨a, args, text', rfl, hrest, htext.symm⟩

theorem stringArgs_skip (h : letter ∉ conversions) :
    stringArgs (.directive left zeros width letter :: rest) args = stringArgs rest args := by
  cases args <;> simp only [stringArgs, if_neg h]

theorem stringArgs_convert (h : letter ∈ conversions) (a : BitVec 32) :
    stringArgs (.directive left zeros width letter :: rest) (a :: args) =
      (if letter = char 's' then [a] else []) ++ stringArgs rest args := by
  simp only [stringArgs, if_pos h]
  split
  · rfl
  · rfl

end Render

variable {P P' : Printer} {limit fuel f pad : Nat} {left zero : Bool} {zeros width : Nat}
  {c letter : BitVec 8} {rest : List (BitVec 8)}

/-! ## Reading a directive -/

theorem skipZeros_eq
    (hspelled : Spells (P.mem .ram) f (List.replicate zeros (char '0') ++ c :: rest))
    (hc : c ≠ char '0') (hfuel : zeros < fuel) :
    P.skipZeros fuel f pad = some (f + zeros, if 0 < zeros then pad ||| padZero else pad) := by
  -- the first zero sets the bit, and the others leave it set
  induction zeros generalizing f fuel pad with
  | zero =>
      obtain ⟨fuel, rfl⟩ := Nat.exists_eq_add_of_lt hfuel
      have hread : P.read ⟨.ram, f⟩ = c := hspelled.1
      simp [Printer.skipZeros, hread, hc]
  | succ zeros ih =>
      obtain ⟨fuel, rfl⟩ : ∃ k, fuel = k + 1 := ⟨fuel - 1, by omega⟩
      obtain ⟨hfirst, hrest⟩ := hspelled
      have hread : P.read ⟨.ram, f⟩ = char '0' := hfirst
      rw [Printer.skipZeros, if_pos hread, ih hrest (by omega)]
      have hor : (if 0 < zeros then pad ||| padZero ||| padZero else pad ||| padZero) =
          pad ||| padZero := by
        rw [Nat.or_assoc, Nat.or_self, ite_self]
      rw [hor, if_pos (Nat.succ_pos zeros)]
      congr 2
      omega

/-- The value of digits, the first one first. -/
def value (ds : List Nat) (acc : Nat) : Nat := ds.foldl (fun acc d => acc * 10 + d) acc

theorem le_value (ds : List Nat) (acc : Nat) : acc ≤ value ds acc := by
  induction ds generalizing acc with
  | nil => exact Nat.le_refl _
  | cons d ds ih =>
      have hrest := ih (acc * 10 + d)
      simp only [value, List.foldl_cons] at hrest ⊢
      omega

theorem digitByte_isDigit {d : Nat} (hd : d < 10) :
    (char '0' ≤ digitByte 'a'.toNat d ∧ digitByte 'a'.toNat d ≤ char '9') ∧
      (digitByte 'a'.toNat d).toNat - '0'.toNat = d := by
  interval_cases d <;> decide

theorem readWidth_eq {ds : List Nat} {acc : Nat} (hds : ∀ d ∈ ds, d < 10)
    (hspelled : Spells (P.mem .ram) f (ds.map (digitByte 'a'.toNat) ++ c :: rest))
    (hc : isDigit c = false) (hvalue : value ds acc < intLimit) (hfuel : ds.length < fuel) :
    P.readWidth fuel f acc = some (f + ds.length, value ds acc) := by
  -- the width that has been read is the accumulator
  induction ds generalizing f fuel acc with
  | nil =>
      obtain ⟨fuel, rfl⟩ := Nat.exists_eq_add_of_lt hfuel
      have hread : P.read ⟨.ram, f⟩ = c := hspelled.1
      have hend : ¬ (char '0' ≤ c ∧ c ≤ char '9') := by simpa [isDigit] using hc
      rw [Printer.readWidth]
      dsimp only
      rw [hread, if_neg hend]
      rfl
  | cons d ds ih =>
      rw [List.length_cons] at hfuel
      obtain ⟨fuel, rfl⟩ : ∃ k, fuel = k + 1 := ⟨fuel - 1, by omega⟩
      obtain ⟨hd, hds⟩ := List.forall_mem_cons.mp hds
      obtain ⟨hfirst, hrest⟩ := hspelled
      have hread : P.read ⟨.ram, f⟩ = digitByte 'a'.toNat d := hfirst
      obtain ⟨hdigit, hnumber⟩ := digitByte_isDigit hd
      have hstep : value (d :: ds) acc = value ds (acc * 10 + d) := rfl
      rw [hstep] at hvalue ⊢
      have hsmall : acc * 10 + d < intLimit := Nat.lt_of_le_of_lt (le_value ds _) hvalue
      rw [Printer.readWidth]
      dsimp only
      rw [hread, if_pos hdigit, hnumber, if_pos hsmall, ih hds hrest hvalue (by omega),
        List.length_cons]
      congr 2
      omega

theorem value_digits (n : Nat) : value (Nat.digits 10 n).reverse 0 = n := by
  have hfold : value (Nat.digits 10 n).reverse 0 = Nat.ofDigits 10 (Nat.digits 10 n) := by
    rw [value, List.foldl_reverse, Nat.ofDigits_eq_foldr]
    congr 1
    funext d acc
    simp [Nat.add_comm, Nat.mul_comm]
  rw [hfold, Nat.ofDigits_digits]

/-- A width begins with a digit that is not 0. -/
theorem digits_head {n : Nat} (hn : 0 < n) :
    ∃ d ds, (Nat.digits 10 n).reverse = d :: ds ∧ 0 < d ∧ d < 10 := by
  have hne : Nat.digits 10 n ≠ [] := Nat.digits_ne_nil_iff_ne_zero.mpr (Nat.pos_iff_ne_zero.mp hn)
  obtain ⟨d, ds, hreverse⟩ := List.exists_cons_of_ne_nil (mt List.reverse_eq_nil_iff.mp hne)
  have hlast : (Nat.digits 10 n).getLast hne = d := by
    rw [← List.head_reverse (by simpa using hne)]
    simp [hreverse]
  have hmem : d ∈ Nat.digits 10 n := by
    rw [← hlast]
    exact List.getLast_mem hne
  refine ⟨d, ds, hreverse, ?_, Nat.digits_lt_base (by decide) hmem⟩
  rw [← hlast]
  exact Nat.pos_iff_ne_zero.mpr (Nat.getLast_digit_ne_zero 10 (Nat.pos_iff_ne_zero.mp hn))

theorem digitByte_ne {d : Nat} (hd : d < 10) :
    digitByte 'a'.toNat d ≠ 0 ∧ digitByte 'a'.toNat d ≠ char '%' ∧
    digitByte 'a'.toNat d ≠ char '-' ∧ (0 < d → digitByte 'a'.toNat d ≠ char '0') := by
  interval_cases d <;> decide

/-- What comes after the zeros does not begin with a zero. -/
theorem width_head (width : Nat) (hletter : isDigit letter = false) :
    ∃ c rest, numeral 10 'a'.toNat width ++ [letter] = c :: rest ∧
    c ≠ char '0' := by
  rcases Nat.eq_zero_or_pos width with rfl | hwidth
  · refine ⟨letter, [], by simp [numeral], ?_⟩
    rintro rfl
    revert hletter
    decide
  · obtain ⟨d, ds, hdigits, hpos, hlt⟩ := digits_head hwidth
    exact ⟨digitByte 'a'.toNat d,
      ds.map (digitByte 'a'.toNat) ++ [letter], by simp [numeral, hdigits],
      (digitByte_ne hlt).2.2.2 hpos⟩

/-- The character behind a percent sign begins a directive. -/
theorem body_head (hproper : (Piece.directive false zeros width letter).Proper) :
    ∃ c rest, Piece.body zeros width letter = c :: rest ∧ c ≠ 0 ∧ c ≠ char '%' ∧ c ≠ char '-' := by
  obtain ⟨-, -, hfirst⟩ := hproper
  cases zeros with
  | succ zeros =>
      exact ⟨char '0', List.replicate zeros (char '0') ++ (numeral 10 'a'.toNat width ++ [letter]),
        rfl, by decide,
        by decide, by decide⟩
  | zero =>
      rcases Nat.eq_zero_or_pos width with rfl | hwidth
      · exact ⟨letter, [], by simp [Piece.body, numeral], hfirst rfl rfl rfl⟩
      · obtain ⟨d, ds, hdigits, -, hlt⟩ := digits_head hwidth
        obtain ⟨hzero, hpercent, hminus, -⟩ := digitByte_ne hlt
        exact ⟨digitByte 'a'.toNat d,
          ds.map (digitByte 'a'.toNat) ++ [letter], by simp [Piece.body, numeral, hdigits],
          hzero, hpercent, hminus⟩

/-- The flags, the width and the letter are read back as they were written. -/
theorem body_eq (hproper : (Piece.directive left zeros width letter).Proper)
    (hspelled : Spells (P.mem .ram) f (Piece.body zeros width letter ++ rest))
    (hfuel : (Piece.body zeros width letter).length ≤ fuel) :
    ∃ f', P.skipZeros fuel f (padBits left false) = some (f', padBits left (0 < zeros)) ∧
      P.readWidth fuel f' 0 = some (f + (Piece.body zeros width letter).length - 1, width) ∧
      P.read ⟨.ram, f + (Piece.body zeros width letter).length - 1⟩ = letter := by
  obtain ⟨hwidth, hletter, -⟩ := hproper
  rw [Piece.body, List.append_assoc, Spells.append_iff, List.length_replicate] at hspelled
  have hlength : (Piece.body zeros width letter).length =
      zeros + ((Nat.digits 10 width).reverse.length + 1) := by
    simp [Piece.body, numeral]
  rw [hlength] at hfuel ⊢
  have hend : f + (zeros + ((Nat.digits 10 width).reverse.length + 1)) - 1 = f + zeros +
      (Nat.digits 10 width).reverse.length := by
    omega
  rw [hend]
  refine ⟨f + zeros, ?_, ?_, ?_⟩
  · obtain ⟨c, tail, hhead, hc⟩ := width_head width hletter
    have hzeros :
        Spells (P.mem .ram) f (List.replicate zeros (char '0') ++ c :: (tail ++ rest)) := by
      rw [Spells.append_iff, List.length_replicate, ← List.cons_append, ← hhead]
      exact hspelled
    rw [skipZeros_eq hzeros hc (by omega)]
    congr 2
    by_cases hpos : 0 < zeros
    · cases left <;> simp [hpos, padBits]
    · cases left <;> simp [hpos, padBits]
  · have hdigits : ∀ d ∈ (Nat.digits 10 width).reverse, d < 10 :=
      fun d hd => Nat.digits_lt_base (by decide) (List.mem_reverse.mp hd)
    have hvalue : value (Nat.digits 10 width).reverse 0 < intLimit := by rwa [value_digits]
    have hread := readWidth_eq hdigits (by simpa [numeral] using hspelled.2) hletter hvalue
      (show (Nat.digits 10 width).reverse.length < fuel by omega)
    rw [hread, value_digits]
  · have hletterAt := hspelled.2
    rw [List.append_assoc, Spells.append_iff] at hletterAt
    have hlength : (numeral 10 'a'.toNat width).length = (Nat.digits 10 width).reverse.length := by
      simp [numeral]
    rw [hlength] at hletterAt
    exact hletterAt.2.1

/-- A directive is read and converted, and the loop goes on behind it. -/
theorem loop_directive (hproper : (Piece.directive left zeros width letter).Proper)
    (hspelled : Spells (P.mem .ram) f ((Piece.directive left zeros width letter).text ++ rest))
    (hfuel : (Piece.directive left zeros width letter).text.length < fuel)
    (args : List (BitVec 32)) (pc : Nat) :
    Printer.loop limit (fuel + 1) P f args pc =
      (P.convert fuel letter width (padBits left (0 < zeros)) limit args).bind fun printed =>
        Printer.loop limit fuel printed.1
          (f + (Piece.directive left zeros width letter).text.length) printed.2.2
          (pc + printed.2.1) := by
  have hpercent : P.read ⟨.ram, f⟩ = char '%' := hspelled.1
  rw [Printer.loop]
  dsimp only
  rw [hpercent, if_neg (by decide), if_pos rfl]
  cases left with
  | false =>
      obtain ⟨c, tail, hbody, hzero, hpercent, hminus⟩ := body_head hproper
      have hbehind : Spells (P.mem .ram) (f + 1) (Piece.body zeros width letter ++ rest) := by
        simpa [Piece.text] using hspelled.2
      have hread : P.read ⟨.ram, f + 1⟩ = c := by
        rw [hbody] at hbehind
        exact hbehind.1
      have hlength : (Piece.directive false zeros width letter).text.length =
          (Piece.body zeros width letter).length + 1 := by
        simp [Piece.text]
      obtain ⟨f', hzeros, hwidth, hletter⟩ :=
        body_eq hproper hbehind (show (Piece.body zeros width letter).length ≤ fuel by omega)
      rw [hread, if_neg hzero, if_neg hpercent, if_neg hminus]
      have hflag : padBits false false = 0 := rfl
      rw [hflag] at hzeros
      have hnext : f + 1 + (Piece.body zeros width letter).length - 1 + 1 =
          f + (Piece.directive false zeros width letter).text.length := by omega
      rw [hzeros, Option.bind_some, hwidth, Option.bind_some, hletter, hnext]
  | true =>
      have hminus : P.read ⟨.ram, f + 1⟩ = char '-' := hspelled.2.1
      have hbehind : Spells (P.mem .ram) (f + 2) (Piece.body zeros width letter ++ rest) := by
        simpa [Piece.text] using hspelled.2.2
      have hlength : (Piece.directive true zeros width letter).text.length =
          (Piece.body zeros width letter).length + 2 := by
        simp [Piece.text]
      obtain ⟨f', hzeros, hwidth, hletter⟩ :=
        body_eq hproper hbehind (show (Piece.body zeros width letter).length ≤ fuel by omega)
      rw [hminus, if_neg (by decide), if_neg (by decide), if_pos rfl]
      have hflag : padBits true false = padRight := rfl
      rw [hflag] at hzeros
      have hnext : f + 2 + (Piece.body zeros width letter).length - 1 + 1 =
          f + (Piece.directive true zeros width letter).text.length := by omega
      rw [hzeros, Option.bind_some, hwidth, Option.bind_some, hletter, hnext]

/-! ## Converting an argument -/

/-- The texts that a format takes from memory are there, and the output does not go to them. -/
structure Sources (P : Printer) (limit : Nat) (strings : BitVec 32 → List (BitVec 8))
    (args : List (BitVec 32)) (output : List (BitVec 8)) (longest : Nat) : Prop where
  null : IsString P ⟨.literal, 0⟩ nullText
  spelled : ∀ a ∈ args, a ≠ 0 → IsString P ⟨.ram, a.toNat⟩ (strings a)
  clear : ∀ a ∈ args, a ≠ 0 → ∀ x, a.toNat ≤ x → x ≤ a.toNat + (strings a).length →
    Clear limit P output x
  short : ∀ a ∈ args, (strings a).length < longest

theorem convert_skip (hletter : letter ∉ conversions) (args : List (BitVec 32)) :
    P.convert fuel letter width pad limit args = some (P, 0, args) := by
  simp only [conversions, List.map_cons, List.map_nil, List.mem_cons, List.not_mem_nil, or_false,
    not_or] at hletter
  obtain ⟨hs, hd, hx, hX, hu, hc⟩ := hletter
  unfold Printer.convert
  rw [if_neg hs, if_neg hd, if_neg hx, if_neg hX, if_neg hu, if_neg hc]

theorem convert_prints {strings : BitVec 32 → List (BitVec 8)} {a : BitVec 32}
    {args : List (BitVec 32)} {longest : Nat} (hletter : letter ∈ conversions)
    (hsources : Sources P limit strings (if letter = char 's' then [a] else [])
      (field strings left zero width letter a) longest)
    (hfuel : longest ≤ fuel) (hbuffer : printBufLen < fuel) :
    ∃ P', P.convert fuel letter width (padBits left zero) limit (a :: args) =
        some (P', (field strings left zero width letter a).length, args) ∧
      Prints limit P P' (field strings left zero width letter a) := by
  have harg {print : BitVec 32 → Option (Printer × Nat)} {text : List (BitVec 8)}
      (h : ∃ P', print a = some (P', text.length) ∧ Prints limit P P' text) :
      ∃ P', Printer.withArg (a :: args) print = some (P', text.length, args) ∧
      Prints limit P P' text := by
    obtain ⟨P', hprint, hprints⟩ := h
    exact ⟨P', by rw [Printer.withArg, hprint, Option.map_some], hprints⟩
  have hlonger : 2 < fuel := Nat.lt_of_lt_of_le (by decide) (Nat.le_of_lt hbuffer)
  simp only [conversions, List.map_cons, List.map_nil, List.mem_cons, List.not_mem_nil, or_false]
    at hletter
  unfold Printer.convert field
  rcases hletter with rfl | rfl | rfl | rfl | rfl | rfl
  · rw [if_pos rfl, if_pos rfl]
    rw [if_pos rfl, field, if_pos rfl] at hsources
    apply harg
    by_cases ha : a ≠ 0
    · rw [if_pos ha] at hsources
      have hshort := hsources.short a (by simp)
      obtain ⟨P', hprints, hout, -⟩ := prints_prints (hsources.spelled a (by simp) ha) left zero
        (fun _ x hlow hhigh => hsources.clear a (by simp) ha x hlow hhigh)
        (Nat.lt_of_lt_of_le hshort hfuel)
      rw [if_pos ha, if_pos ha]
      exact ⟨P', hprints, hout⟩
    · have hnull : nullText.length < fuel := Nat.lt_of_lt_of_le (by decide) (Nat.le_of_lt hbuffer)
      obtain ⟨P', hprints, hout, -⟩ := prints_prints hsources.null left zero (by simp) hnull
      rw [if_neg ha, if_neg ha]
      exact ⟨P', hprints, hout⟩
  · apply harg
    exact printi_prints P (.inl rfl) (.inl rfl) true left zero width limit a hbuffer
  · apply harg
    exact printi_prints P (.inr rfl) (.inl rfl) false left zero width limit a hbuffer
  · apply harg
    exact printi_prints P (.inr rfl) (.inr rfl) false left zero width limit a hbuffer
  · apply harg
    exact printi_prints P (.inl rfl) (.inl rfl) false left zero width limit a hbuffer
  · apply harg
    have hscr : ((P.set ⟨.scr, 0⟩ (a.setWidth 8)).set ⟨.scr, 1⟩ 0).mem .scr =
        Function.update (Function.update (P.mem .scr) 0 (a.setWidth 8)) 1 0 := by
      rw [Printer.mem_set_self _ ⟨.scr, 1⟩, Printer.mem_set_self _ ⟨.scr, 0⟩]
    have hspelled : Spells (((P.set ⟨.scr, 0⟩ (a.setWidth 8)).set ⟨.scr, 1⟩ 0).mem .scr) 0
        [a.setWidth 8, 0] := by
      rw [hscr]
      exact ⟨by simp, by simp, trivial⟩
    have hstring : IsString ((P.set ⟨.scr, 0⟩ (a.setWidth 8)).set ⟨.scr, 1⟩ 0) ⟨.scr, 0⟩
        (if a.setWidth 8 = 0 then [] else [a.setWidth 8]) := by
      by_cases hzero : a.setWidth 8 = 0
      · rw [if_pos hzero]
        exact ⟨⟨hspelled.1.trans hzero, trivial⟩, by simp⟩
      · rw [if_neg hzero]
        exact ⟨hspelled, by simpa using hzero⟩
    have hshort : (if a.setWidth 8 = 0 then [] else [a.setWidth 8]).length < fuel := by
      split
      · rw [List.length_nil]
        omega
      · rw [List.length_singleton]
        omega
    have hlocal : Prints limit P ((P.set ⟨.scr, 0⟩ (a.setWidth 8)).set ⟨.scr, 1⟩ 0) [] :=
      ((Prints.refl limit P).local_ (by simp) (by simp)).local_ (by simp) (by simp)
    obtain ⟨P', hprints, hout, -⟩ := prints_prints hstring left zero (by simp) hshort
    exact ⟨P', hprints, hlocal.trans hout⟩

/-! ## The format string -/

section Loop

variable {strings : BitVec 32 → List (BitVec 8)} {args args' : List (BitVec 32)} {longest : Nat}
  {output output' : List (BitVec 8)}

theorem Sources.front (h : Sources P limit strings args (output ++ output') longest)
    (hsub : args' ⊆ args) :
    Sources P limit strings args' output longest :=
  ⟨h.null, fun a ha => h.spelled a (hsub ha), fun a ha hne x hlow hhigh =>
      (h.clear a (hsub ha) hne x hlow hhigh).left,
    fun a ha => h.short a (hsub ha)⟩

theorem Sources.back (h : Sources P limit strings args (output ++ output') longest)
    (hsub : args' ⊆ args) (hprints : Prints limit P P' output) :
    Sources P' limit strings args' output' longest := by
  refine ⟨?_, fun a ha hne => ?_, fun a ha hne x hlow hhigh => ?_, fun a ha => h.short a (hsub ha)⟩
  · exact h.null.prints hprints (fun _ => hprints.literal) (by simp)
  · refine (h.spelled a (hsub ha) hne).prints hprints (by simp) fun _ x hlow hhigh => ?_
    exact (h.clear a (hsub ha) hne x hlow hhigh).left
  · exact hprints.clear (h.clear a (hsub ha) hne x hlow hhigh)

/-- The loop prints the text that the format gives. A single percent sign before the terminator is
skipped. -/
theorem loop_prints {pieces : List Piece} {stop : List (BitVec 8)}
    (hstop : stop = [] ∨ stop = [char '%']) (hproper : ∀ piece ∈ pieces, piece.Proper)
    (hrender : render strings pieces args = some output)
    (hformat : Spells (P.mem .ram) f (formatText pieces ++ (stop ++ [0])))
    (hclear : ∀ x, f ≤ x → x ≤ f + (formatText pieces).length + stop.length →
      Clear limit P output x)
    (hsources : Sources P limit strings (stringArgs pieces args) output longest)
    (hlongest : printBufLen < longest ∧ (formatText pieces).length < longest)
    (hfuel : pieces.length + longest < fuel) (pc : Nat) :
    ∃ P', Printer.loop limit fuel P f args pc = some (P', pc + output.length) ∧
      Prints limit P P' output := by
  -- on the pieces of the format; the printer, the place in the format and the count all vary
  induction pieces generalizing P f args output fuel pc with
  | nil =>
      obtain rfl := Option.some.inj hrender
      obtain ⟨fuel, rfl⟩ := Nat.exists_eq_add_of_lt hfuel
      refine ⟨P, ?_, .refl limit P⟩
      rw [Printer.loop]
      dsimp only
      -- the format ends here, or in a percent sign that the terminator follows
      rcases hstop with rfl | rfl
      · have hread : P.read ⟨.ram, f⟩ = 0 := hformat.1
        rw [hread, if_pos rfl]
        rfl
      · have hfirst : P.read ⟨.ram, f⟩ = char '%' := hformat.1
        have hsecond : P.read ⟨.ram, f + 1⟩ = 0 := hformat.2.1
        rw [hfirst, if_neg (by decide), if_pos rfl, hsecond, if_pos rfl]
        rfl
  | cons piece pieces ih =>
      obtain ⟨fuel, rfl⟩ : ∃ k, fuel = k + 1 := ⟨fuel - 1, by omega⟩
      obtain ⟨hpiece, hproper⟩ := List.forall_mem_cons.mp hproper
      have htext : formatText (piece :: pieces) = piece.text ++ formatText pieces := rfl
      rw [htext] at hformat hclear hlongest
      rw [List.length_append] at hclear hlongest
      rw [List.length_cons] at hfuel
      rw [List.append_assoc] at hformat
      have hbehind := (Spells.append_iff.mp hformat).2
      -- after the first text the rest of the format is printed
      have hrest {Q : Printer} {args' : List (BitVec 32)} {first rest : List (BitVec 8)} (n : Nat)
          (hQ : Prints limit P Q first) (hrender : render strings pieces args' = some rest)
          (houtput : output = first ++ rest)
          (hsub : stringArgs pieces args' ⊆ stringArgs (piece :: pieces) args) :
          ∃ P', Printer.loop limit fuel Q (f + piece.text.length) args' n =
            some (P', n + rest.length) ∧
            Prints limit P P' output := by
        rw [houtput] at hclear hsources ⊢
        have hkept : Spells (Q.mem .ram) (f + piece.text.length)
            (formatText pieces ++ (stop ++ [0])) := by
          refine hbehind.congr fun x hlow hhigh => hQ.ram x ?_
          rw [List.length_append, List.length_append, List.length_singleton] at hhigh
          exact (hclear x (by omega) (by omega)).left
        have hshort : pieces.length + longest < fuel := by omega
        obtain ⟨P', hloop, hprints⟩ := ih hproper hrender hkept
          (fun x hlow hhigh => hQ.clear (hclear x (by omega) (by omega))) (hsources.back hsub hQ)
          ⟨hlongest.1, by omega⟩ hshort n
        exact ⟨P', hloop, hQ.trans hprints⟩
      cases piece with
      | literal c =>
          obtain ⟨rest, hrest', houtput⟩ := Option.map_eq_some_iff.mp hrender
          obtain ⟨hzero, hpercent⟩ := hpiece
          have hread : P.read ⟨.ram, f⟩ = c := hformat.1
          obtain ⟨P', hloop, hprints⟩ :=
            hrest (pc + 1) (printchar_prints P c limit).1 hrest' houtput.symm fun _ => id
          refine ⟨P', ?_, hprints⟩
          rw [Printer.loop]
          dsimp only
          rw [hread, if_neg hzero, if_neg hpercent]
          refine hloop.trans ?_
          rw [← houtput, List.length_append, List.length_singleton, Nat.add_assoc]
      | percent =>
          obtain ⟨rest, hrest', houtput⟩ := Option.map_eq_some_iff.mp hrender
          have hfirst : P.read ⟨.ram, f⟩ = char '%' := hformat.1
          have hsecond : P.read ⟨.ram, f + 1⟩ = char '%' := hformat.2.1
          obtain ⟨P', hloop, hprints⟩ :=
            hrest (pc + 1) (printchar_prints P (char '%') limit).1 hrest' houtput.symm fun _ => id
          refine ⟨P', ?_, hprints⟩
          rw [Printer.loop]
          dsimp only
          rw [hfirst, if_neg (by decide), if_pos rfl, hsecond, if_neg (by decide), if_pos rfl]
          refine hloop.trans ?_
          rw [← houtput, List.length_append, List.length_singleton, Nat.add_assoc]
      | directive left zeros width letter =>
          rw [loop_directive hpiece hformat (by omega) args pc]
          by_cases hletter : letter ∈ conversions
          · obtain ⟨a, args, rest, rfl, hrest', houtput⟩ := render_convert hletter hrender
            have hstrings : stringArgs (.directive left zeros width letter :: pieces) (a :: args) =
                (if letter = char 's' then [a] else []) ++ stringArgs pieces args :=
              stringArgs_convert hletter a
            have hfirst : Sources P limit strings (if letter = char 's' then [a] else [])
                (field strings left (0 < zeros) width letter a) longest := by
              rw [houtput] at hsources
              apply hsources.front
              rw [hstrings]
              exact List.subset_append_left ..
            obtain ⟨Q, hconvert, hQ⟩ := convert_prints hletter hfirst (show longest ≤ fuel by omega)
              (show printBufLen < fuel by omega)
            obtain ⟨P', hloop, hprints⟩ := hrest
              (pc + (field strings left (0 < zeros) width letter a).length) hQ hrest' houtput
              (by rw [hstrings]; exact List.subset_append_right ..)
            refine ⟨P', ?_, hprints⟩
            rw [hconvert, Option.bind_some, houtput, List.length_append, ← Nat.add_assoc]
            exact hloop
          · rw [render_skip hletter] at hrender
            rw [convert_skip hletter, Option.bind_some]
            exact hrest pc (.refl limit P) hrender rfl
              (by rw [stringArgs_skip hletter]; exact fun _ => id)

end Loop

end SimulatedLinux.Printf
