import PubSub.Json.Scan

/-!
# The grammar of JSON

`Writes v s` says that the bytes `s` are one of the ways to write the value `v`: with any white
space, any spelling of the numbers and any escapes in the texts. It is stated without the scanners,
so that what these read can be compared with it.
-/

namespace PubSub.Json

/-- The members of an object come in an order, and their keys may repeat. -/
inductive Value where
  | null
  | boolean (b : Bool)
  | number (q : Rat)
  | text (t : String)
  | list (vs : List Value)
  | object (ms : List (String × Value))

/-- White space, or nothing. -/
def White (s : Bytes) : Prop := ∀ b ∈ s, b = 32 ∨ b = 9 ∨ b = 10 ∨ b = 13

/-! ## Numbers -/

structure Digits (s : Bytes) : Prop where
  ne_nil : s ≠ []
  digits : ∀ b ∈ s, 48 ≤ b ∧ b ≤ 57

/-- Digits of which a zero stands alone. -/
structure Whole (s : Bytes) : Prop extends Digits s where
  zeroAlone : s.head? = some 48 → s = [48]

inductive WritesFraction : Option Bytes → Bytes → Prop
  | absent : WritesFraction none []
  | present {ds : Bytes} : Digits ds → WritesFraction (some ds) (46 :: ds)

/-- The exponent is negative or not, and has digits. -/
inductive WritesExponent : Option (Bool × Bytes) → Bytes → Prop
  | absent : WritesExponent none []
  | bare {e : UInt8} {ds : Bytes} : e = 101 ∨ e = 69 → Digits ds →
      WritesExponent (some (false, ds)) (e :: ds)
  | plus {e : UInt8} {ds : Bytes} : e = 101 ∨ e = 69 → Digits ds →
      WritesExponent (some (false, ds)) (e :: 43 :: ds)
  | minus {e : UInt8} {ds : Bytes} : e = 101 ∨ e = 69 → Digits ds →
      WritesExponent (some (true, ds)) (e :: 45 :: ds)

def decimal (ds : Bytes) : Nat := ds.foldl (fun n b => n * 10 + (b.toNat - 48)) 0

/-- The number that a numeral stands for. -/
def Numeral.value (n : Numeral) : Rat :=
  let fraction := n.fraction.getD []
  let power : Int :=
    match n.exponent with
    | none => 0
    | some (negative, ds) => if negative then -(decimal ds : Int) else decimal ds
  let shift := power - fraction.length
  let size := Rat.ofScientific (decimal (n.whole ++ fraction)) (shift < 0) shift.natAbs
  if n.negative then -size else size

def minusSign (negative : Bool) : Bytes := if negative then [45] else []

inductive WritesNumber : Rat → Bytes → Prop
  | numeral (n : Numeral) {f x : Bytes} : Whole n.whole → WritesFraction n.fraction f →
      WritesExponent n.exponent x →
      WritesNumber n.value (minusSign n.negative ++ n.whole ++ f ++ x)

/-! ## Texts -/

/-- A hexadecimal digit, in lower or in upper case. -/
def WritesHex (v : Nat) (b : UInt8) : Prop :=
  v < 10 ∧ b.toNat = 48 + v ∨ 10 ≤ v ∧ v < 16 ∧ (b.toNat = 87 + v ∨ b.toNat = 55 + v)

/-- Four hexadecimal digits. -/
inductive WritesUnit : Nat → Bytes → Prop
  | digits {w x y z : Nat} {a b c d : UInt8} : WritesHex w a → WritesHex x b → WritesHex y c →
      WritesHex z d → WritesUnit (((w * 16 + x) * 16 + y) * 16 + z) [a, b, c, d]

/-- The characters with an escape by one letter, and the letter. -/
def letterEscapes : List (Nat × UInt8) :=
  [(34, 34), (92, 92), (47, 47), (8, 98), (12, 102), (10, 110), (13, 114), (9, 116)]

/-- The spellings of a character: itself, a letter after a backslash, its number, or above the first
plane the numbers of two surrogates. -/
inductive WritesChar (c : Char) : Bytes → Prop
  | plain : 32 ≤ c.toNat → c.toNat ≠ 34 → c.toNat ≠ 92 → WritesChar c (Utf8.encodeChar c)
  | letter {b : UInt8} : (c.toNat, b) ∈ letterEscapes → WritesChar c [92, b]
  | unit {s : Bytes} : WritesUnit c.toNat s → WritesChar c (92 :: 117 :: s)
  | pair {s t : Bytes} : 0x10000 ≤ c.toNat →
      WritesUnit (0xD800 + (c.toNat - 0x10000) / 0x400) s →
      WritesUnit (0xDC00 + (c.toNat - 0x10000) % 0x400) t →
      WritesChar c (92 :: 117 :: s ++ 92 :: 117 :: t)

inductive WritesChars : List Char → Bytes → Prop
  | nil : WritesChars [] []
  | cons {c : Char} {cs : List Char} {s t : Bytes} : WritesChar c s → WritesChars cs t →
      WritesChars (c :: cs) (s ++ t)

inductive WritesText (t : String) : Bytes → Prop
  | quoted {s : Bytes} : WritesChars t.toList s → WritesText t (34 :: s ++ [34])

/-- A text of characters that stand for themselves. -/
theorem writesText_plain {t : String}
    (h : ∀ c ∈ t.toList, 32 ≤ c.toNat ∧ c.toNat ≠ 34 ∧ c.toNat ≠ 92) :
    WritesText t (34 :: Utf8.ofText t ++ [34]) := by
  have hchars : ∀ {cs : List Char}, (∀ c ∈ cs, 32 ≤ c.toNat ∧ c.toNat ≠ 34 ∧ c.toNat ≠ 92) →
      WritesChars cs (Utf8.encode cs) := by
    intro cs hcs
    induction cs with
    | nil => exact .nil
    | cons c cs ih =>
      obtain ⟨hlo, hq, hs⟩ := hcs c List.mem_cons_self
      exact .cons (.plain hlo hq hs) (ih fun d hd => hcs d (List.mem_cons_of_mem _ hd))
  exact .quoted (hchars h)

/-! ## Values -/

/-- What stands before an element or a member: white space, with a comma unless it is the first. -/
inductive Between : Bool → Bytes → Prop
  | first {w : Bytes} : White w → Between true w
  | comma {w a : Bytes} : White w → White a → Between false (w ++ 44 :: a)

mutual

/-- The value without white space before or after it. -/
inductive Writes : Value → Bytes → Prop
  | null : Writes .null (Utf8.ofText "null")
  | true : Writes (.boolean true) (Utf8.ofText "true")
  | false : Writes (.boolean false) (Utf8.ofText "false")
  | number {q : Rat} {s : Bytes} : WritesNumber q s → Writes (.number q) s
  | text {t : String} {s : Bytes} : WritesText t s → Writes (.text t) s
  | list {vs : List Value} {s : Bytes} : WritesElements true vs s →
      Writes (.list vs) (91 :: s ++ [93])
  | object {ms : List (String × Value)} {s : Bytes} : WritesMembers true ms s →
      Writes (.object ms) (123 :: s ++ [125])

/-- The elements that are left of a list, up to its closing bracket. -/
inductive WritesElements : (first : Bool) → List Value → Bytes → Prop
  | nil {first : Bool} {w : Bytes} : White w → WritesElements first [] w
  | cons {first : Bool} {v : Value} {vs : List Value} {b u s : Bytes} : Between first b →
      Writes v u → WritesElements false vs s → WritesElements first (v :: vs) (b ++ u ++ s)

/-- The members that are left of an object, up to its closing brace. -/
inductive WritesMembers : (first : Bool) → List (String × Value) → Bytes → Prop
  | nil {first : Bool} {w : Bytes} : White w → WritesMembers first [] w
  | cons {first : Bool} {k : String} {v : Value} {ms : List (String × Value)}
      {b t w a u s : Bytes} : Between first b → WritesText k t → White w → White a → Writes v u →
      WritesMembers false ms s →
      WritesMembers first ((k, v) :: ms) (b ++ t ++ w ++ 58 :: a ++ u ++ s)

end

/-- A text that holds one value, with white space around it. -/
inductive Renders (v : Value) : Bytes → Prop
  | around {a u b : Bytes} : White a → Writes v u → White b → Renders v (a ++ u ++ b)

end PubSub.Json
