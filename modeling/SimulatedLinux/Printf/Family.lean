import SimulatedLinux.Printf.Format

/-! # `printf`, `sprintf` and `snprintf`

The three functions give one text: to the UART, to a buffer, and to a buffer as far as it goes. They
return its length also where it does not fit.
-/

namespace SimulatedLinux.Printf

open Lib

variable {P : Printer} {strings : BitVec 32 → List (BitVec 8)} {pieces : List Piece}
  {args : List (BitVec 32)} {format limit longest fuel : Nat} {stop output : List (BitVec 8)}

/-- The strings among the arguments, as they are in memory. -/
structure Texts (P : Printer) (strings : BitVec 32 → List (BitVec 8)) (args : List (BitVec 32))
    (longest : Nat) : Prop where
  null : IsString P ⟨.literal, 0⟩ nullText
  spelled : ∀ a ∈ args, a ≠ 0 → IsString P ⟨.ram, a.toNat⟩ (strings a)
  short : ∀ a ∈ args, (strings a).length < longest
  buffer : printBufLen < longest

/-- A format string with its arguments, as they are in memory, and the text that they give. A format
string may stop with a single percent sign. -/
structure Job (P : Printer) (strings : BitVec 32 → List (BitVec 8)) (pieces : List Piece)
    (stop : List (BitVec 8)) (args : List (BitVec 32)) (format longest : Nat)
    (output : List (BitVec 8)) : Prop where
  proper : ∀ piece ∈ pieces, piece.Proper
  stops : stop = [] ∨ stop = [char '%']
  render : render strings pieces args = some output
  format : Spells (P.mem .ram) format (formatText pieces ++ (stop ++ [0]))
  texts : Texts P strings (stringArgs pieces args) longest
  long : (formatText pieces).length < longest

/-- The bytes of the format string and of the strings among its arguments. -/
def Reads (strings : BitVec 32 → List (BitVec 8)) (pieces : List Piece) (stop : List (BitVec 8))
    (args : List (BitVec 32)) (format x : Nat) : Prop :=
  format ≤ x ∧ x ≤ format + (formatText pieces).length + stop.length ∨
    ∃ a ∈ stringArgs pieces args, a ≠ 0 ∧ a.toNat ≤ x ∧ x ≤ a.toNat + (strings a).length

namespace Job

theorem withStr (h : Job P strings pieces stop args format longest output) (str : Option Nat) :
    Job { P with str } strings pieces stop args format longest output :=
  ⟨h.proper, h.stops, h.render, h.format, ⟨⟨h.texts.null.spelled, h.texts.null.nonzero⟩,
    fun a ha hne => ⟨(h.texts.spelled a ha hne).spelled, (h.texts.spelled a ha hne).nonzero⟩,
    h.texts.short, h.texts.buffer⟩,
    h.long⟩

theorem loop (h : Job P strings pieces stop args format longest output)
    (hfuel : pieces.length + longest < fuel) (limit : Nat)
    (hclear : ∀ x, Reads strings pieces stop args format x → Clear limit P output x) :
    ∃ P', Printer.loop limit fuel P format args 0 = some (P', output.length) ∧
      Prints limit P P' output := by
  have hsources : Sources P limit strings (stringArgs pieces args) output longest :=
    ⟨h.texts.null, h.texts.spelled, fun a ha hne x hlow hhigh =>
        hclear x (.inr ⟨a, ha, hne, hlow, hhigh⟩), h.texts.short⟩
  have hloop := loop_prints h.stops h.proper h.render h.format
    (fun x hlow hhigh => hclear x (.inl ⟨hlow, hhigh⟩)) hsources ⟨h.texts.buffer, h.long⟩ hfuel 0
  rwa [Nat.zero_add] at hloop

/-- The text goes to the UART. -/
theorem printf (h : Job P strings pieces stop args format longest output)
    (hfuel : pieces.length + longest < fuel) (hcount : output.length < intLimit) :
    ∃ P', P.printf fuel format args = some (P', output.length) ∧ P'.uart = P.uart ++ output ∧
      P'.mem .ram = P.mem .ram := by
  obtain ⟨P', hloop, hprints⟩ := (h.withStr none).loop hfuel 0 fun x _ str hstr => by cases hstr
  refine ⟨P', ?_, ?_, funext fun x => hprints.ram x fun str hstr => by cases hstr⟩
  · unfold Printer.printf Printer.tinyPrint
    have hstr : P'.str = none := hprints.str
    dsimp only
    rw [if_pos rfl, hloop, Option.bind_some]
    dsimp only
    rw [if_pos hcount, hstr]
  · have huart := hprints.uart
    rwa [if_pos rfl] at huart

/-- What is written of the text into a buffer of `buflen` bytes, where 0 is no limit. -/
def written (buflen : Nat) (output : List (BitVec 8)) : List (BitVec 8) :=
  if buflen = 0 then output else output.take (buflen - 1)

/-- The text goes to a buffer, as far as there is room, and a terminator behind it. -/
theorem tinyPrint (h : Job P strings pieces stop args format longest output)
    (hfuel : pieces.length + longest < fuel) (hcount : output.length < intLimit) {buf buflen : Nat}
    (hbuf : buflen ≠ 0 → buf ≠ 0 ∧ buf + (buflen - 1) < addressLimit)
    (hspace : buf + (written buflen output).length < addressLimit)
    (hclear : ∀ x, Reads strings pieces stop args format x →
      x < buf ∨ buf + (written buflen output).length ≤ x) :
    ∃ P', ({ P with str := some buf } : Printer).tinyPrint fuel format args buflen =
        some (P', output.length) ∧
      Spells (P'.mem .ram) buf (written buflen output ++ [0]) ∧ P'.uart = P.uart ∧
      ∀ x, x < buf ∨ buf + (written buflen output).length < x →
        P'.mem .ram x = P.mem .ram x := by
  -- the limit as the code computes it, which does not wrap around
  have hlimit : ∃ limit, (if buflen = 0 then 0 else (buf + (buflen - 1)) % addressLimit) = limit ∧
      stored limit buf output = written buflen output := by
    by_cases hzero : buflen = 0
    · exact ⟨0, if_pos hzero, by simp [stored, written, hzero]⟩
    · obtain ⟨hnonnull, hfits⟩ := hbuf hzero
      have hlimit : buf + (buflen - 1) ≠ 0 := by omega
      refine ⟨buf + (buflen - 1), ?_, ?_⟩
      · rw [if_neg hzero, Nat.mod_eq_of_lt hfits]
      · rw [stored, written, if_neg hzero, if_neg hlimit, Nat.add_sub_cancel_left]
  obtain ⟨limit, hlimit, hstored⟩ := hlimit
  have hclear' (x : Nat) (hx : Reads strings pieces stop args format x) :
      Clear limit { P with str := some buf } output x := by
    intro str hstr
    obtain rfl := Option.some.inj hstr
    rw [hstored]
    exact hclear x hx
  obtain ⟨P', hloop, hprints⟩ := (h.withStr (some buf)).loop hfuel limit hclear'
  have hspelled := hprints.spelled buf rfl
  have hstr : P'.str = some (buf + (stored limit buf output).length) := hprints.str
  rw [hstored] at hspelled hstr
  generalize written buflen output = text at *
  have hset : (P'.set ⟨.ram, buf + text.length⟩ 0).mem .ram =
      Function.update (P'.mem .ram) (buf + text.length) 0 := P'.mem_set_self ⟨.ram, _⟩ 0
  refine ⟨P'.set ⟨.ram, buf + text.length⟩ 0, ?_, ?_, ?_, fun x hx => ?_⟩
  · unfold Printer.tinyPrint
    dsimp only [Option.getD_some]
    rw [hlimit, hloop, Option.bind_some]
    dsimp only
    rw [if_pos hcount, hstr]
    dsimp only
    rw [if_pos hspace]
  · rw [Spells.append_iff, hset]
    refine ⟨hspelled.congr fun x _ hhigh => ?_, Function.update_self .., trivial⟩
    exact Function.update_of_ne (by omega) ..
  · have huart := hprints.uart
    simpa using huart
  · rw [hset, Function.update_of_ne (by omega)]
    refine hprints.ram x fun str hsome => ?_
    obtain rfl := Option.some.inj hsome
    rw [hstored]
    omega

end Job

/-- One format with its arguments gives one text: `printf` sends it to the UART, `sprintf` writes it
to a buffer, and `snprintf` with a count that is not 0 writes what fits before a terminator. All
three return its length, and change no other memory. A count of 0 sets no limit. The length fits in
an `int`, and the buffers end in the memory. -/
theorem printf_family_agrees (hjob : Job P strings pieces stop args format longest output)
    (hfuel : pieces.length + longest < fuel) (hlength : output.length < intLimit) :
    (∃ P', P.printf fuel format args = some (P', output.length) ∧ P'.uart = P.uart ++ output ∧
      P'.mem .ram = P.mem .ram) ∧
    (∀ out, out + output.length < addressLimit →
      (∀ x, Reads strings pieces stop args format x → x < out ∨ out + output.length ≤ x) →
      ∃ P', P.sprintf fuel out format args = some (P', output.length) ∧
        Spells (P'.mem .ram) out (output ++ [0]) ∧ P'.uart = P.uart ∧
        ∀ x, x < out ∨ out + output.length < x → P'.mem .ram x = P.mem .ram x) ∧
    (∀ buf count, buf ≠ 0 → count ≠ 0 → buf + count ≤ addressLimit →
      (∀ x, Reads strings pieces stop args format x →
        x < buf ∨ buf + (output.take (count - 1)).length ≤ x) →
      ∃ P', P.snprintf fuel buf count format args = some (P', output.length) ∧
        Spells (P'.mem .ram) buf (output.take (count - 1) ++ [0]) ∧ P'.uart = P.uart ∧
        ∀ x, x < buf ∨ buf + count ≤ x → P'.mem .ram x = P.mem .ram x) ∧
    ∀ buf, P.snprintf fuel buf 0 format args = P.sprintf fuel buf format args := by
  refine ⟨hjob.printf hfuel hlength, fun out hspace hclear => ?_,
    fun buf count hbuf hcount hspace hclear => ?_, fun _ => rfl⟩
  · exact hjob.tinyPrint hfuel hlength (fun hzero => absurd rfl hzero) hspace hclear
  · have hwritten : Job.written count output = output.take (count - 1) := if_neg hcount
    have hroom : (Job.written count output).length < count := by
      rw [hwritten, List.length_take]
      omega
    rw [← hwritten] at hclear ⊢
    obtain ⟨P', hprint, hspelled, huart, hothers⟩ :=
      hjob.tinyPrint hfuel hlength (fun _ => ⟨hbuf, by omega⟩) (by omega) hclear
    exact ⟨P', hprint, hspelled, huart, fun x hx => hothers x (by omega)⟩

/-- A memory with a format string at 100 and the string "ab" at 200. -/
def formatAndString : Printer where
  mem
    | .ram => fun x =>
        if x < 200 then
          (['%', '0', '6', 'd', '|', '%', '-', '5', 's', '%', '%', '%', 'x', ' ', '%', 'c'].map
            char).getD (x - 100) 0
        else (['a', 'b'].map char).getD (x - 200) 0
    | .literal => fun x => nullText.getD x 0
    | .printBuf => fun _ => 0
    | .scr => fun _ => 0
  str := none
  uart := []

def formatPieces : List Piece :=
  [.directive false 1 6 (char 'd'), .literal (char '|'), .directive true 0 5 (char 's'), .percent,
    .directive false 0 0 (char 'x'), .literal (char ' '), .directive false 0 0 (char 'c')]

def formatOutput : List (BitVec 8) :=
  ['-', '0', '0', '0', '4', '2', '|', 'a', 'b', ' ', ' ', ' ', '%', 'f', 'f', ' ', 'A'].map char

theorem formatPieces_proper : ∀ piece ∈ formatPieces, piece.Proper := by decide

theorem formatText_formatPieces :
    formatText formatPieces = ['%', '0', '6', 'd', '|', '%', '-', '5', 's', '%', '%', '%', 'x', ' ',
      '%', 'c'].map char := by
  simp [formatText, formatPieces, Piece.text, Piece.body, numeral, digitByte, char]

theorem render_formatPieces :
    render (fun _ => ['a', 'b'].map char) formatPieces [-42, 200, 255, 65] = some formatOutput := by
  have hdecimal : numeral 10 'a'.toNat 42 = ['4', '2'].map char := by
    simp [numeral, digitByte, char]
  have hhex : numeral 16 'a'.toNat 255 = ['f', 'f'].map char := by
    simp [numeral, digitByte, char]
  have hfirst : number 10 true 'a'.toNat false true 6 (-42) =
      ['-', '0', '0', '0', '4', '2'].map char := by
    have hnumber : number 10 true 'a'.toNat false true 6 (-42) =
        char '-' :: padded false true 5 (numeral 10 'a'.toNat 42) := rfl
    rw [hnumber, hdecimal]
    decide
  have hlast : number 16 false 'a'.toNat false false 0 255 = ['f', 'f'].map char := by
    have hnumber : number 16 false 'a'.toNat false false 0 255 =
        padded false false 0 (numeral 16 'a'.toNat 255) := rfl
    rw [hnumber, hhex]
    decide
  have hfields : render (fun _ => ['a', 'b'].map char) formatPieces [-42, 200, 255, 65] =
      some (number 10 true 'a'.toNat false true 6 (-42) ++
        ([char '|'] ++
          (padded true false 5 (['a', 'b'].map char) ++
            ([char '%'] ++ (number 16 false 'a'.toNat false false 0 255 ++
              ([char ' '] ++ (padded false false 0 [char 'A'] ++ []))))))) := rfl
  rw [hfields, hfirst, hlast]
  decide

theorem printf_family_agrees_truncated :
    ∃ P', formatAndString.snprintf 40 300 10 100 [-42, 200, 255, 65] = some (P', 17) ∧
      Spells (P'.mem .ram) 300 (formatOutput.take 9 ++ [0]) := by
  have hstrings : stringArgs formatPieces [-42, 200, 255, 65] = [200] := by decide
  have hjob : Job formatAndString (fun _ => ['a', 'b'].map char) formatPieces [] [-42, 200, 255, 65]
      100 20 formatOutput := by
    refine ⟨formatPieces_proper, .inl rfl, render_formatPieces, ?_, ⟨⟨?_, ?_⟩, ?_, ?_, by decide⟩,
      ?_⟩
    · rw [formatText_formatPieces]
      decide +kernel
    · decide +kernel
    · decide
    · rw [hstrings, List.forall_mem_singleton]
      exact fun _ => ⟨by decide +kernel, by decide⟩
    · rw [hstrings, List.forall_mem_singleton]
      decide
    · rw [formatText_formatPieces]
      decide
  have hfuel : formatPieces.length + 20 < 40 := by decide
  obtain ⟨-, -, hsnprintf, -⟩ := printf_family_agrees hjob hfuel (by decide)
  obtain ⟨P', hprinted, hspelled, -⟩ := hsnprintf 300 10 (by decide) (by decide) (by decide)
    fun x hx => by
      rw [Reads, hstrings, formatText_formatPieces] at hx
      simp at hx
      omega
  exact ⟨P', hprinted, hspelled⟩

end SimulatedLinux.Printf
