import Mathlib.Data.List.TakeWhile
import Mathlib.Data.Nat.Notation
import Skyscale.Lib.Bytes

/-!
# JSON texts

A reader of JSON texts as Go's `encoding/json` reads them: `Json.first` takes the
first value off a byte string and leaves the rest, `Json.whole` accepts a byte string
that is one value with blanks around it.  Strings are unquoted to characters, with
U+FFFD for bytes that are not UTF-8 and for lone surrogates; numbers keep their text.

`Json.decode` stores the members of an object into the fields of a record, by exact or
by folded name.
-/

namespace Skyscale
namespace Lib

/-- A JSON value. -/
inductive Json
  | null
  | bool (value : Bool)
  | num (text : Bytes)
  | str (text : List Char)
  | arr (items : List Json)
  | obj (members : List (List Char × Json))

namespace Json

/-! ## Blanks and punctuation -/

def isBlank (b : UInt8) : Bool := b = 32 || b = 9 || b = 13 || b = 10

def skipBlanks (bs : Bytes) : Bytes := bs.dropWhile isBlank

/-- Blanks, and then this byte. -/
def expect (b : UInt8) (bs : Bytes) : Option Bytes :=
  match skipBlanks bs with
  | [] => none
  | c :: rest => if c = b then some rest else none

/-! ## Strings -/

def isHex (b : UInt8) : Bool :=
  (48 ≤ b && b ≤ 57) || (97 ≤ b && b ≤ 102) || (65 ≤ b && b ≤ 70)

/-- The bytes that may follow a backslash, apart from `u`. -/
def isEscape (b : UInt8) : Bool :=
  b = 98 || b = 102 || b = 110 || b = 114 || b = 116 || b = 92 || b = 47 || b = 34

/-- Where the reader is inside a string: `hex n` expects `n + 1` hexadecimal digits. -/
inductive StringState
  | plain
  | escaped
  | hex (left : Nat)

/-- The state after a byte inside a string, if the byte may stand there. -/
def StringState.next : StringState → UInt8 → Option StringState
  | plain, b => if b < 32 then none else some (if b = 92 then escaped else plain)
  | escaped, b => if b = 117 then some (hex 3) else if isEscape b then some plain else none
  | hex 0, b => if isHex b then some plain else none
  | hex (n + 1), b => if isHex b then some (hex n) else none

/-- The bytes of a string up to its closing quote, and the rest. -/
def rawString : StringState → Bytes → Option (Bytes × Bytes)
  | _, [] => none
  | s, b :: bs =>
    match s, decide (b = 34) with
    | .plain, true => some ([], bs)
    | s, _ =>
      match s.next b with
      | none => none
      | some s' => (rawString s' bs).map fun r => (b :: r.1, r.2)

/-- The replacement character. -/
def replacement : Char := '\ufffd'

def hexValue (b : UInt8) : Nat :=
  if b ≤ 57 then b.toNat - 48 else if b ≤ 70 then b.toNat - 55 else b.toNat - 87

/-- Four hexadecimal digits. -/
def code : Bytes → Option Nat
  | a :: b :: c :: d :: _ =>
    if isHex a && isHex b && isHex c && isHex d then
      some (((hexValue a * 16 + hexValue b) * 16 + hexValue c) * 16 + hexValue d)
    else
      none
  | _ => none

/-- A further `\u` escape. -/
def nextCode : Bytes → Option Nat
  | a :: b :: bs => if a = 92 && b = 117 then code bs else none
  | _ => none

/-- What a `\u` escape stands for, and how many bytes follow the backslash. -/
def unicodeEscape (bs : Bytes) : Char × Nat :=
  match code bs with
  | none => (replacement, 1)
  | some high =>
    if 0xD800 ≤ high ∧ high < 0xE000 then
      match nextCode (bs.drop 4) with
      | none => (replacement, 5)
      | some low =>
        if high < 0xDC00 ∧ 0xDC00 ≤ low ∧ low < 0xE000 then
          (Char.ofNat (0x10000 + (high - 0xD800) * 0x400 + (low - 0xDC00)), 11)
        else
          (replacement, 5)
    else
      (Char.ofNat high, 5)

/-- What an escape stands for, and how many bytes follow the backslash. -/
def escape : Bytes → Char × Nat
  | [] => (replacement, 0)
  | b :: bs =>
    if b = 117 then unicodeEscape bs
    else if b = 98 then (Char.ofNat 8, 1)
    else if b = 102 then (Char.ofNat 12, 1)
    else if b = 110 then ('\n', 1)
    else if b = 114 then ('\r', 1)
    else if b = 116 then ('\t', 1)
    else (Char.ofNat b.toNat, 1)

def isTail (b : UInt8) : Bool := 0x80 ≤ b && b ≤ 0xBF

/-- The bytes that may follow a leading byte of a longer UTF-8 sequence. -/
def isSecond (lead b : UInt8) : Bool :=
  if lead = 0xE0 then 0xA0 ≤ b && b ≤ 0xBF
  else if lead = 0xED then 0x80 ≤ b && b ≤ 0x9F
  else if lead = 0xF0 then 0x90 ≤ b && b ≤ 0xBF
  else if lead = 0xF4 then 0x80 ≤ b && b ≤ 0x8F
  else isTail b

/-- The character a byte outside ASCII starts, and how many bytes follow; a byte that
starts none is replaced. -/
def rune (lead : UInt8) (bs : Bytes) : Char × Nat :=
  if 0xC2 ≤ lead && lead ≤ 0xDF then
    match bs with
    | b :: _ =>
      if isTail b then (Char.ofNat ((lead.toNat - 0xC0) * 64 + (b.toNat - 0x80)), 1)
      else (replacement, 0)
    | _ => (replacement, 0)
  else if 0xE0 ≤ lead && lead ≤ 0xEF then
    match bs with
    | b :: c :: _ =>
      if isSecond lead b && isTail c then
        (Char.ofNat (((lead.toNat - 0xE0) * 64 + (b.toNat - 0x80)) * 64 + (c.toNat - 0x80)), 2)
      else (replacement, 0)
    | _ => (replacement, 0)
  else if 0xF0 ≤ lead && lead ≤ 0xF4 then
    match bs with
    | b :: c :: d :: _ =>
      if isSecond lead b && isTail c && isTail d then
        (Char.ofNat ((((lead.toNat - 0xF0) * 64 + (b.toNat - 0x80)) * 64 + (c.toNat - 0x80)) * 64 +
          (d.toNat - 0x80)), 3)
      else (replacement, 0)
    | _ => (replacement, 0)
  else
    (replacement, 0)

/-- The characters of a string; the first argument counts bytes that belong to the
character before. -/
def unquote : Nat → Bytes → List Char
  | _, [] => []
  | n + 1, _ :: bs => unquote n bs
  | 0, b :: bs =>
    if b = 92 then (escape bs).1 :: unquote (escape bs).2 bs
    else if b < 128 then Char.ofNat b.toNat :: unquote 0 bs
    else (rune b bs).1 :: unquote (rune b bs).2 bs

/-! ## Numbers -/

def isDigit (b : UInt8) : Bool := 48 ≤ b && b ≤ 57

def isExponent (b : UInt8) : Bool := b = 101 || b = 69

/-- Where the reader is inside a number. -/
inductive NumberState
  | minus | zero | int | dot | frac | e | sign | exp

namespace NumberState

/-- The state after the first byte of a number. -/
def start (b : UInt8) : Option NumberState :=
  if b = 45 then some minus else if b = 48 then some zero else if isDigit b then some int else none

def next : NumberState → UInt8 → Option NumberState
  | minus, b => if b = 48 then some zero else if isDigit b then some int else none
  | zero, b => if b = 46 then some dot else if isExponent b then some e else none
  | int, b =>
    if isDigit b then some int else if b = 46 then some dot
    else if isExponent b then some e else none
  | dot, b => if isDigit b then some frac else none
  | frac, b => if isDigit b then some frac else if isExponent b then some e else none
  | e, b => if b = 43 || b = 45 then some sign else if isDigit b then some exp else none
  | sign, b => if isDigit b then some exp else none
  | exp, b => if isDigit b then some exp else none

/-- The number may end here. -/
def ends : NumberState → Bool
  | zero | int | frac | exp => true
  | minus | dot | e | sign => false

end NumberState

/-- The remaining bytes of a number, as many as possible, and the rest. -/
def number : NumberState → Bytes → Option (Bytes × Bytes)
  | s, [] => if s.ends then some ([], []) else none
  | s, b :: bs =>
    match s.next b with
    | some s' => (number s' bs).map fun r => (b :: r.1, r.2)
    | none => if s.ends then some ([], b :: bs) else none

/-! ## Values -/

def literal (word : Bytes) (value : Json) (bs : Bytes) : Option (Json × Bytes) :=
  if word.isPrefixOf bs then some (value, bs.drop word.length) else none

/-- A value that is neither an object nor an array, by its first byte. -/
def scalar (b : UInt8) (bs : Bytes) : Option (Json × Bytes) :=
  if b = 34 then (rawString .plain bs).map fun r => (.str (unquote 0 r.1), r.2)
  else if b = 116 then literal [114, 117, 101] (.bool true) bs
  else if b = 102 then literal [97, 108, 115, 101] (.bool false) bs
  else if b = 110 then literal [117, 108, 108] .null bs
  else
    match NumberState.start b with
    | none => none
    | some s => (number s bs).map fun r => (.num (b :: r.1), r.2)

/-- The key of a member, up to the colon. -/
def member (bs : Bytes) : Option (List Char × Bytes) :=
  match expect 34 bs with
  | none => none
  | some bs1 =>
    match rawString .plain bs1 with
    | none => none
    | some (raw, bs2) => (expect 58 bs2).map fun bs3 => (unquote 0 raw, bs3)

/-- What is read: a value, or the rest of an object or array behind its bracket. -/
inductive Part
  | value
  | members
  | items
deriving DecidableEq

def consMember (key : List Char) (value : Json) : Json → Json
  | obj members => obj ((key, value) :: members)
  | other => other

def consItem (value : Json) : Json → Json
  | arr items => arr (value :: items)
  | other => other

/-- Read a part, with fuel, up to a nesting depth. -/
def parse : Nat → Part → Nat → Bytes → Option (Json × Bytes)
  | 0, _, _, _ => none
  | _ + 1, .value, _, [] => none
  | n + 1, .value, depth, b :: bs =>
    if b = 123 then
      match depth with
      | 0 => none
      | d + 1 =>
        match expect 125 bs with
        | some rest => some (.obj [], rest)
        | none => parse n .members d bs
    else if b = 91 then
      match depth with
      | 0 => none
      | d + 1 =>
        match expect 93 bs with
        | some rest => some (.arr [], rest)
        | none => parse n .items d bs
    else
      scalar b bs
  | n + 1, .members, d, bs =>
    match member bs with
    | none => none
    | some (key, bs1) =>
      match parse n .value d (skipBlanks bs1) with
      | none => none
      | some (value, bs2) =>
        match expect 44 bs2 with
        | some bs3 => (parse n .members d bs3).map fun r => (consMember key value r.1, r.2)
        | none => (expect 125 bs2).map fun rest => (.obj [(key, value)], rest)
  | n + 1, .items, d, bs =>
    match parse n .value d (skipBlanks bs) with
    | none => none
    | some (value, bs2) =>
      match expect 44 bs2 with
      | some bs3 => (parse n .items d bs3).map fun r => (consItem value r.1, r.2)
      | none => (expect 93 bs2).map fun rest => (.arr [value], rest)

/-- The deepest nesting that is read. -/
def maxDepth : Nat := 10000

/-- The first value of a text, and the rest. -/
def first (bs : Bytes) : Option (Json × Bytes) :=
  parse (2 * bs.length + 1) .value maxDepth (skipBlanks bs)

/-- The value of a text that is one value with blanks around it. -/
def whole (bs : Bytes) : Option Json :=
  match first bs with
  | some (value, rest) => if rest.all isBlank then some value else none
  | none => none

/-! ## Decoding into a record -/

/-- The folding of field names: ASCII letters to upper case, and the Kelvin sign and the
long s to the letters they fold with.  No other character folds into ASCII. -/
def foldRune (c : Char) : Char :=
  if 'a' ≤ c ∧ c ≤ 'z' then c.toUpper
  else if c = '\u212a' then 'K'
  else if c = '\u017f' then 'S'
  else c

def foldName (key : List Char) : List Char := key.map foldRune

section Decode

variable {F σ : Type}

/-- The field a key stands for: by its name, or else by its folded name. -/
def lookup (name : F → String) (fields : List F) (key : List Char) : Option F :=
  match fields.find? fun f => (name f).toList = key with
  | some f => some f
  | none => fields.find? fun f => foldName (name f).toList = foldName key

/-- Decode members one after the other; members that stand for no field are skipped,
and a value of the wrong type is an error. -/
def decodeMembers (find : List Char → Option F) (store : F → Json → σ → Option σ) :
    List (List Char × Json) → σ → Option σ
  | [], s => some s
  | (key, value) :: members, s =>
    match find key with
    | none => decodeMembers find store members s
    | some f =>
      match store f value s with
      | none => none
      | some s' => decodeMembers find store members s'

/-- Decode a value into a record; `null` leaves it alone. -/
def decode (find : List Char → Option F) (store : F → Json → σ → Option σ) (s : σ) :
    Json → Option σ
  | .obj members => decodeMembers find store members s
  | .null => some s
  | _ => none

/-- Decode into a field of type `string`. -/
def storeText (set : String → σ) (s : σ) : Json → Option σ
  | .str text => some (set (String.ofList text))
  | .null => some s
  | _ => none

/-- Decode into a field of type `bool`. -/
def storeBool (set : Bool → σ) (s : σ) : Json → Option σ
  | .bool value => some (set value)
  | .null => some s
  | _ => none

mutual

/-- All numbers of a value pass a test. -/
def numbersAll (p : Bytes → Bool) : Json → Bool
  | .num text => p text
  | .arr items => numbersAllItems p items
  | .obj members => numbersAllMembers p members
  | _ => true

def numbersAllItems (p : Bytes → Bool) : List Json → Bool
  | [] => true
  | v :: items => numbersAll p v && numbersAllItems p items

def numbersAllMember (p : Bytes → Bool) : List Char × Json → Bool
  | (_, v) => numbersAll p v

def numbersAllMembers (p : Bytes → Bool) : List (List Char × Json) → Bool
  | [] => true
  | m :: members => numbersAllMember p m && numbersAllMembers p members

end

theorem foldName_of_lookup {name : F → String} {fields : List F} {key : List Char} {f : F}
    (h : lookup name fields key = some f) :
    f ∈ fields ∧ foldName (name f).toList = foldName key := by
  unfold lookup at h
  split at h
  · rename_i g hexact
    cases h
    refine ⟨List.mem_of_find?_eq_some hexact, ?_⟩
    have hname := List.find?_some hexact
    rw [of_decide_eq_true hname]
  · refine ⟨List.mem_of_find?_eq_some h, ?_⟩
    have hname := List.find?_some h
    exact of_decide_eq_true hname

theorem lookup_eq_none_iff {name : F → String} {fields : List F} {key : List Char} :
    lookup name fields key = none ↔
      ∀ f ∈ fields, foldName (name f).toList ≠ foldName key := by
  constructor
  · intro h
    unfold lookup at h
    split at h
    · cases h
    · intro f hf heq
      exact List.find?_eq_none.mp h f hf (decide_eq_true heq)
  · intro h
    cases hfound : lookup name fields key with
    | none => rfl
    | some f =>
      obtain ⟨hf, heq⟩ := foldName_of_lookup hfound
      exact absurd heq (h f hf)

/-- Two records are decoded in step, if every member is. -/
theorem decodeMembers_map {G τ : Type} {find : List Char → Option F}
    {store : F → Json → σ → Option σ} {find' : List Char → Option G}
    {store' : G → Json → τ → Option τ} (project : σ → τ)
    (hskip : ∀ key, find key = none → find' key = none)
    (hstore : ∀ key f value s s', find key = some f → store f value s = some s' →
      (find' key = none ∧ project s' = project s) ∨
      ∃ g, find' key = some g ∧ store' g value (project s) = some (project s'))
    {members : List (List Char × Json)} {s s' : σ}
    (h : decodeMembers find store members s = some s') :
    decodeMembers find' store' members (project s) = some (project s') := by
  induction members generalizing s with
  | nil =>
    cases h
    rfl
  | cons m members ih =>
    obtain ⟨key, value⟩ := m
    simp only [decodeMembers] at h ⊢
    split at h
    · rename_i hfind
      rw [hskip key hfind]
      exact ih h
    · rename_i f hfind
      split at h
      · cases h
      rename_i s1 hs1
      rcases hstore key f value s s1 hfind hs1 with ⟨hnone, hsame⟩ | ⟨g, hsome, hstored⟩
      · rw [hnone]
        simp only
        rw [← hsame]
        exact ih h
      · rw [hsome]
        simp only
        rw [hstored]
        exact ih h

end Decode

end Json

end Lib
end Skyscale
