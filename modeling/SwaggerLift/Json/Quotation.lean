import SwaggerLift.Json.Reading
import SwaggerLift.Text.Hex
/-!
Quoted texts of a JSON text: `escaped` writes them, `readQuoted` reads them. Characters outside the
basic plane may be spelled as two escapes, a high and a low surrogate.
-/

namespace SwaggerLift.Json

def escapedChar (c : Char) : List Char :=
  if c = '"' then ['\\', '"']
  else if c = '\\' then ['\\', '\\']
  else if c = '\n' then ['\\', 'n']
  else if c = '\r' then ['\\', 'r']
  else if c = '\t' then ['\\', 't']
  else if c = '\x08' then ['\\', 'b']
  else if c = '\x0c' then ['\\', 'f']
  else if c.toNat < 0x20 then '\\' :: 'u' :: Text.hexPadded 4 c.toNat
  else [c]

def escaped (s : String) : List Char :=
  '"' :: s.toList.flatMap escapedChar ++ ['"']

def shortEscape? : Char → Option Char
  | '"' => some '"'
  | '\\' => some '\\'
  | '/' => some '/'
  | 'b' => some '\x08'
  | 'f' => some '\x0c'
  | 'n' => some '\n'
  | 'r' => some '\r'
  | 't' => some '\t'
  | _ => none

def isHighSurrogate (n : Nat) : Bool := 0xD800 ≤ n && n < 0xDC00

def isLowSurrogate (n : Nat) : Bool := 0xDC00 ≤ n && n < 0xE000

def joinSurrogates (high low : Nat) : Char :=
  Char.ofNat ((high - 0xD800) * 0x400 + (low - 0xDC00) + 0x10000)

/-- A quoted text that has been read in part: its characters in reverse, a high surrogate that waits
    for its partner, and what already makes it unfit to be wanted. -/
structure Partial where
  chars : List Char
  high : Option Nat
  unfit : Option Cut

namespace Partial

def start : Partial := ⟨[], none, none⟩

def settle (p : Partial) : Partial :=
  -- A high surrogate without a partner makes the text unfit.
  match p.high with
  | none => p
  | some _ => { p with high := none, unfit := p.unfit.or (some .malformed) }

def add (p : Partial) (c : Char) : Partial :=
  let p := p.settle
  { p with chars := c :: p.chars }

def addUnit (p : Partial) (n : Nat) : Partial :=
  match p.high with
  | some high =>
      if isLowSurrogate n then { p with chars := joinSurrogates high n :: p.chars, high := none }
      else { p with high := none, unfit := p.unfit.or (some .malformed) }
  | none =>
      if isHighSurrogate n then { p with high := some n }
      else if isLowSurrogate n then { p with unfit := p.unfit.or (some .malformed) }
      else p.add (Char.ofNat n)

def result (p : Partial) : Reading String :=
  let p := p.settle
  match p.unfit with
  | some cut => ⟨.error cut, none⟩
  | none => .clean (String.ofList p.chars.reverse)

/-- The text cannot be read on. What made it unfit before was met first. -/
def stop (p : Partial) (cut : Cut) : Reading String := ⟨.error (p.unfit.getD cut), some cut⟩

end Partial

/-- An escape of a code unit needs four more bytes. -/
def cutEscape (rest : List Char) : Cut :=
  if (String.ofList rest).utf8ByteSize < 4 then .ended else .malformed

def readQuoted : List Char → Partial → Reading String × List Char
  -- Controls have to be escaped.
  | [], p => (p.stop .ended, [])
  | '"' :: rest, p => (p.result, rest)
  | '\\' :: 'u' :: a :: b :: c :: d :: rest, p =>
      match Text.hexRow? [a, b, c, d] with
      | some n => readQuoted rest (p.addUnit n)
      | none => (p.stop .malformed, [])
  | '\\' :: 'u' :: rest, p => (p.stop (cutEscape rest), [])
  | '\\' :: letter :: rest, p =>
      match shortEscape? letter with
      | some c => readQuoted rest (p.add c)
      | none => (p.settle.stop .malformed, [])
  | ['\\'], p => (p.stop .ended, [])
  | c :: rest, p =>
      if c.toNat < 0x20 then (p.settle.stop .malformed, []) else readQuoted rest (p.add c)

theorem readQuoted_length (text : List Char) (p : Partial) :
    (readQuoted text p).2.length ≤ text.length := by
  fun_induction readQuoted text p <;> simp_all <;> omega

end SwaggerLift.Json
