import SimulatedLinux.Lib.Bytes

/-! # The formatted output `printf-stdarg.c`

One function serves `printf`, `sprintf` and `snprintf`: it walks over the format string and sends
each character to the UART, to memory, or to memory up to a limit. Digits are made backwards in a
buffer of twelve bytes on the stack.
-/

namespace SimulatedLinux.Printf

open Lib

/-- The objects that the functions read: the memory of the program, the literal "(null)", and the
two local arrays. Different objects do not overlap. -/
inductive Region
  | ram
  | literal
  | printBuf
  | scr
  deriving DecidableEq, Repr

/-- A pointer to a character. -/
structure Ptr where
  region : Region
  offset : Nat
  deriving DecidableEq, Repr

def Ptr.add (p : Ptr) (n : Nat) : Ptr := { p with offset := p.offset + n }

def char (c : Char) : BitVec 8 := BitVec.ofNat 8 c.toNat

/-- `PRINT_BUF_LEN`. -/
def printBufLen : Nat := 12

/-- The bits of `pad`. -/
def padRight : Nat := 1

def padZero : Nat := 2

/-- The values of a non-negative `int`. -/
def intLimit : Nat := 2 ^ 31

/-- The addresses of the memory. -/
def addressLimit : Nat := 2 ^ 32

/-- The state of the output: `str` is `*out`, or `none` where `out` is a null pointer, and then the
characters go to the UART. -/
structure Printer where
  mem : Region → Bytes
  str : Option Nat
  uart : List (BitVec 8)

namespace Printer

def read (P : Printer) (p : Ptr) : BitVec 8 := P.mem p.region p.offset

def set (P : Printer) (p : Ptr) (c : BitVec 8) : Printer :=
  { P with mem := Function.update P.mem p.region (Function.update (P.mem p.region) p.offset c) }

/-- `printchar`. No limit is known where `buflimit` is 0. -/
def printchar (P : Printer) (c : BitVec 8) (buflimit : Nat) : Printer :=
  match P.str with
  | some str =>
      if buflimit = 0 then { P.set ⟨.ram, str⟩ c with str := some (str + 1) }
      else if str < buflimit then { P.set ⟨.ram, str⟩ c with str := some (str + 1) }
      else P
  | none => { P with uart := P.uart ++ [c] }

/-- The first loop of `prints`: the length of the string. -/
def countChars (P : Printer) : Nat → Ptr → Nat → Option Nat
  | 0, _, _ => none
  | fuel + 1, ptr, len =>
      if P.read ptr ≠ 0 then P.countChars fuel (ptr.add 1) (len + 1) else some len

/-- The loops of `prints` that write padding. -/
def padding (padchar : BitVec 8) (buflimit : Nat) : Nat → Printer → Printer
  | 0, P => P
  | width + 1, P => padding padchar buflimit width (P.printchar padchar buflimit)

/-- The loop of `prints` that writes the string. -/
def copyChars (buflimit : Nat) : Nat → Printer → Ptr → Nat → Option (Printer × Nat)
  | 0, _, _, _ => none
  | fuel + 1, P, string, pc =>
      if P.read string ≠ 0 then
        copyChars buflimit fuel (P.printchar (P.read string) buflimit) (string.add 1) (pc + 1)
      else some (P, pc)

/-- `prints`. -/
def prints (fuel : Nat) (P : Printer) (string : Ptr) (width pad buflimit : Nat) :
    Option (Printer × Nat) :=
  let justified :=
    if 0 < width then
      (P.countChars fuel string 0).map fun len =>
        (if width ≤ len then 0 else width - len, if pad &&& padZero ≠ 0 then char '0' else char ' ')
    else some (width, char ' ')
  justified.bind fun (width, padchar) =>
    if pad &&& padRight = 0 then
      copyChars buflimit fuel (padding padchar buflimit width P) string width
    else
      (copyChars buflimit fuel P string 0).map fun (P, pc) =>
        (padding padchar buflimit width P, pc + width)

/-- The loop of `printi`. There is no result where it would write before `print_buf`. -/
def digits (b letbase : Nat) : Nat → Printer → Nat → Nat → Option (Printer × Nat)
  | 0, _, _, _ => none
  | fuel + 1, P, s, u =>
      if u ≠ 0 then
        let t := u % b
        let t := if 10 ≤ t then t + (letbase - '0'.toNat - 10) else t
        match s with
        | 0 => none
        | s + 1 =>
            digits b letbase fuel (P.set ⟨.printBuf, s⟩ (BitVec.ofNat 8 (t + '0'.toNat))) s (u / b)
      else some (P, s)

/-- `printi`. The least `int` is negated as the processor does it. -/
def printi (fuel : Nat) (P : Printer) (i : BitVec 32) (b : Nat) (sg : Bool)
    (width pad letbase buflimit : Nat) :
    Option (Printer × Nat) :=
  if i = 0 then
    ((P.set ⟨.printBuf, 0⟩ (char '0')).set ⟨.printBuf, 1⟩ 0).prints fuel ⟨.printBuf, 0⟩
      width pad buflimit
  else
    let neg := sg && b = 10 && i.slt 0
    let u := if neg then -i else i
    let s := printBufLen - 1
    (digits b letbase fuel (P.set ⟨.printBuf, s⟩ 0) s u.toNat).bind fun (P, s) =>
      if neg then
        if width ≠ 0 ∧ pad &&& padZero ≠ 0 then
          ((P.printchar (char '-') buflimit).prints fuel ⟨.printBuf, s⟩ (width - 1) pad
              buflimit).map fun (P, pc) =>
            (P, 1 + pc)
        else
          match s with
          | 0 => none
          | s + 1 => (P.set ⟨.printBuf, s⟩ (char '-')).prints fuel ⟨.printBuf, s⟩ width pad buflimit
      else P.prints fuel ⟨.printBuf, s⟩ width pad buflimit

/-- The loop of `tiny_print` over the zeros of a directive. -/
def skipZeros (P : Printer) : Nat → Nat → Nat → Option (Nat × Nat)
  | 0, _, _ => none
  | fuel + 1, format, pad =>
      if P.read ⟨.ram, format⟩ = char '0' then P.skipZeros fuel (format + 1) (pad ||| padZero)
      else some (format, pad)

/-- The loop of `tiny_print` over the width. There is no result where the `int` overflows. -/
def readWidth (P : Printer) : Nat → Nat → Nat → Option (Nat × Nat)
  | 0, _, _ => none
  | fuel + 1, format, width =>
      let c := P.read ⟨.ram, format⟩
      if char '0' ≤ c ∧ c ≤ char '9' then
        let width := width * 10 + (c.toNat - '0'.toNat)
        if width < intLimit then P.readWidth fuel (format + 1) width else none
      else some (format, width)

/-- `va_arg`: the next argument is printed. There is no result where there is none. -/
def withArg (args : List (BitVec 32)) (print : BitVec 32 → Option (Printer × Nat)) :
    Option (Printer × Nat × List (BitVec 32)) :=
  match args with
  | [] => none
  | a :: args => (print a).map fun printed => (printed.1, printed.2, args)

/-- The conversions of `tiny_print`, with the arguments that are left. A letter that it does not
know is skipped. -/
def convert (fuel : Nat) (P : Printer) (c : BitVec 8) (width pad buflimit : Nat)
    (args : List (BitVec 32)) :
    Option (Printer × Nat × List (BitVec 32)) :=
  if c = char 's' then
    withArg args fun a =>
      P.prints fuel (if a ≠ 0 then ⟨.ram, a.toNat⟩ else ⟨.literal, 0⟩) width pad buflimit
  else if c = char 'd' then
    withArg args fun a => P.printi fuel a 10 true width pad 'a'.toNat buflimit
  else if c = char 'x' then
    withArg args fun a => P.printi fuel a 16 false width pad 'a'.toNat buflimit
  else if c = char 'X' then
    withArg args fun a => P.printi fuel a 16 false width pad 'A'.toNat buflimit
  else if c = char 'u' then
    withArg args fun a => P.printi fuel a 10 false width pad 'a'.toNat buflimit
  else if c = char 'c' then
    withArg args fun a =>
      ((P.set ⟨.scr, 0⟩ (a.setWidth 8)).set ⟨.scr, 1⟩ 0).prints fuel ⟨.scr, 0⟩ width pad buflimit
  else some (P, 0, args)

/-- The loop of `tiny_print` over the format string. -/
def loop (buflimit : Nat) : Nat → Printer → Nat → List (BitVec 32) → Nat → Option (Printer × Nat)
  | 0, _, _, _, _ => none
  | fuel + 1, P, format, args, pc =>
      let c := P.read ⟨.ram, format⟩
      if c = 0 then some (P, pc)
      else if c = char '%' then
        let format := format + 1
        let c := P.read ⟨.ram, format⟩
        if c = 0 then some (P, pc)
        else if c = char '%' then
          loop buflimit fuel (P.printchar c buflimit) (format + 1) args (pc + 1)
        else
          let flagged := if c = char '-' then (format + 1, padRight) else (format, 0)
          (P.skipZeros fuel flagged.1 flagged.2).bind fun (format, pad) =>
            (P.readWidth fuel format 0).bind fun (format, width) =>
              (P.convert fuel (P.read ⟨.ram, format⟩) width pad buflimit args).bind
                fun (P, n, args) =>
                loop buflimit fuel P (format + 1) args (pc + n)
      else loop buflimit fuel (P.printchar c buflimit) (format + 1) args (pc + 1)

/-- `tiny_print`, where `*out` is the `str` of the printer. The sum of the limit wraps around the
end of memory. There is no result where the `int` of the count overflows or the pointer has left the
memory: both only grow, so that they are looked at once at the end. -/
def tinyPrint (fuel : Nat) (P : Printer) (format : Nat) (args : List (BitVec 32)) (buflen : Nat) :
    Option (Printer × Nat) :=
  let buflimit := if buflen = 0 then 0 else (P.str.getD 0 + (buflen - 1)) % addressLimit
  (loop buflimit fuel P format args 0).bind fun (P, pc) =>
    if pc < intLimit then
      match P.str with
      | some str => if str < addressLimit then some (P.set ⟨.ram, str⟩ 0, pc) else none
      | none => some (P, pc)
    else none

/-- `printf`. -/
def printf (fuel : Nat) (P : Printer) (format : Nat) (args : List (BitVec 32)) :
    Option (Printer × Nat) :=
  { P with str := none }.tinyPrint fuel format args 0

/-- `sprintf`. -/
def sprintf (fuel : Nat) (P : Printer) (out format : Nat) (args : List (BitVec 32)) :
    Option (Printer × Nat) :=
  { P with str := some out }.tinyPrint fuel format args 0

/-- `snprintf`. -/
def snprintf (fuel : Nat) (P : Printer) (buf count format : Nat) (args : List (BitVec 32)) :
    Option (Printer × Nat) :=
  { P with str := some buf }.tinyPrint fuel format args count

end Printer

end SimulatedLinux.Printf
