import Mathlib.Data.List.Basic

/-!
# Words of a shell command

Token recognition and quote removal of a POSIX shell, for commands in which nothing
else happens.  The reader goes over the command character by character.  It is
undefined where a shell would do more than split words and remove quotes: at an
unquoted operator, at a character that may start an expansion, a comment or a
pattern, and inside a quotation that is not closed.  It is also undefined at NUL,
which no text contains.

`feed_append` composes the reading of a command from its parts.  `Spells` and `Quotes`
say what a part stands for; a way of quoting that spells every character on its own is
read back by `words_intercalate`.
-/

namespace Skyscale
namespace Lib
namespace Shell

/-- How the next character is read. -/
inductive Quoting
  | unquoted
  | escaped
  | single
  | double
  | doubleEscaped
deriving DecidableEq

/-- The reader: the words that are complete, and the word being read, if any. -/
structure Reader where
  words : List (List Char)
  word : Option (List Char)
  quoting : Quoting
deriving DecidableEq

/-- The reader before the first character. -/
def start : Reader := ⟨[], none, .unquoted⟩

/-- Characters that separate words. -/
def isBlank (c : Char) : Bool := c = ' ' || c = '\t'

/-- Characters that must be quoted to stand for themselves: operators, expansions,
and those that are special in some places only. -/
def isSpecial (c : Char) : Bool :=
  c ∈ ['|', '&', ';', '<', '>', '(', ')', '$', '\x60', '\n', '*', '?', '[', ']', '^', '!', '#',
    '~', '=', '%', '\x7b', '\x7d', ',', '-']

/-- Characters that a backslash quotes between double quotes. -/
def isDoubleEscapable (c : Char) : Bool := c ∈ ['$', '\x60', '\x22', '\\']

namespace Reader

/-- Open a word, unless one is open. -/
def opened (r : Reader) (quoting : Quoting) : Reader :=
  ⟨r.words, some (r.word.getD []), quoting⟩

/-- Add characters to the word. -/
def push (r : Reader) (cs : List Char) (quoting : Quoting) : Reader :=
  ⟨r.words, some (r.word.getD [] ++ cs), quoting⟩

/-- End the word, if one is open. -/
def closed (r : Reader) : Reader := ⟨r.words ++ r.word.toList, none, .unquoted⟩

/-- Read one character. -/
def step (r : Reader) (c : Char) : Option Reader :=
  if c = '\x00' then
    none
  else
    match r.quoting with
    | .unquoted =>
      if isBlank c then some r.closed
      else if c = '\x27' then some (r.opened .single)
      else if c = '\x22' then some (r.opened .double)
      else if c = '\\' then some { r with quoting := .escaped }
      else if isSpecial c then none
      else some (r.push [c] .unquoted)
    | .escaped =>
      -- A backslash before a newline continues the line.
      if c = '\n' then some { r with quoting := .unquoted } else some (r.push [c] .unquoted)
    | .single =>
      if c = '\x27' then some (r.opened .unquoted) else some (r.push [c] .single)
    | .double =>
      if c = '\x22' then some (r.opened .unquoted)
      else if c = '\\' then some { r with quoting := .doubleEscaped }
      else if c = '$' ∨ c = '\x60' then none
      else some (r.push [c] .double)
    | .doubleEscaped =>
      if c = '\n' then some { r with quoting := .double }
      else if isDoubleEscapable c then some (r.push [c] .double)
      else some (r.push ['\\', c] .double)

/-- The words, at the end of the command. -/
def finish (r : Reader) : Option (List (List Char)) :=
  if r.quoting = .unquoted then some r.closed.words else none

/-- Read some characters. -/
def feed (r : Reader) (cs : List Char) : Option Reader := cs.foldlM step r

end Reader

/-- The words of a command. -/
def words (command : String) : Option (List String) :=
  ((start.feed command.toList).bind Reader.finish).map fun ws => ws.map String.ofList

open Reader

theorem feed_nil (r : Reader) : r.feed [] = some r := rfl

theorem feed_cons (r : Reader) (c : Char) (cs : List Char) :
    r.feed (c :: cs) = (r.step c).bind fun r' => r'.feed cs := rfl

theorem feed_append {r r' : Reader} {xs : List Char} (h : r.feed xs = some r')
    (ys : List Char) : r.feed (xs ++ ys) = r'.feed ys := by
  unfold feed at h ⊢
  rw [List.foldlM_append, h]
  rfl

/-! ## Spelling words -/

/-- Inside a word and a kind of quotation, the text stands for the characters. -/
def Spells (quoting : Quoting) (text cs : List Char) : Prop :=
  ∀ ws w, Reader.feed ⟨ws, some w, quoting⟩ text = some ⟨ws, some (w ++ cs), quoting⟩

/-- Between words, the text stands for one word. -/
def Quotes (text word : List Char) : Prop :=
  ∀ ws, Reader.feed ⟨ws, none, .unquoted⟩ text = some ⟨ws, some word, .unquoted⟩

theorem spells_single {c : Char} (hnul : c ≠ '\x00') (hquote : c ≠ '\x27') :
    Spells .single [c] [c] := by
  intro ws w
  rw [feed_cons]
  simp [step, hnul, hquote, push, feed_nil]

theorem Spells.flatMap {quoting : Quoting} {spell : Char → List Char} {word : List Char}
    (h : ∀ c ∈ word, Spells quoting (spell c) [c]) :
    Spells quoting (word.flatMap spell) word := by
  induction word with
  | nil =>
    intro ws w
    rw [List.flatMap_nil, feed_nil, List.append_nil]
  | cons c cs ih =>
    intro ws w
    have hrest := ih (fun d hd => h d (List.mem_cons_of_mem c hd)) ws (w ++ [c])
    rw [List.flatMap_cons, feed_append (h c List.mem_cons_self ws w), hrest, List.append_assoc]
    rfl

theorem Spells.quotes {text word : List Char} (h : Spells .single text word) :
    Quotes ('\x27' :: (text ++ ['\x27'])) word := by
  intro ws
  have hopen : Reader.step ⟨ws, none, .unquoted⟩ '\x27' = some ⟨ws, some [], .single⟩ := rfl
  have hclose : Reader.feed ⟨ws, some word, .single⟩ ['\x27'] =
      some ⟨ws, some word, .unquoted⟩ := rfl
  rw [feed_cons, hopen, Option.bind_some, feed_append (h ws []), List.nil_append, hclose]

theorem feed_intercalate {quote : List Char → List Char} {first : List Char}
    {rest : List (List Char)} (h : ∀ word ∈ first :: rest, Quotes (quote word) word)
    (ws : List (List Char)) :
    (Reader.feed ⟨ws, none, .unquoted⟩ ([' '].intercalate ((first :: rest).map quote))).bind
      finish = some (ws ++ first :: rest) := by
  induction rest generalizing first ws with
  | nil =>
    rw [List.map_singleton, List.intercalate_singleton, h first List.mem_cons_self ws]
    rfl
  | cons second rest ih =>
    have hnext : Reader.feed ⟨ws, some first, .unquoted⟩ [' '] =
        some ⟨ws ++ [first], none, .unquoted⟩ := rfl
    rw [List.map_cons, List.map_cons, List.intercalate_cons_cons, List.append_assoc,
      feed_append (h first List.mem_cons_self ws), feed_append hnext, ← List.map_cons,
      ih (fun word hword => h word (List.mem_cons_of_mem first hword)) (ws ++ [first]),
      List.append_assoc]
    rfl

theorem words_intercalate {quote : List Char → List Char} {values : List String}
    (h : ∀ value ∈ values, Quotes (quote value.toList) value.toList) :
    words (" ".intercalate (values.map fun value => String.ofList (quote value.toList))) =
      some values := by
  cases values with
  | nil => rfl
  | cons value values =>
    have hquotes : ∀ word ∈ (value :: values).map String.toList, Quotes (quote word) word := by
      intro word hword
      obtain ⟨text, htext, rfl⟩ := List.mem_map.mp hword
      exact h text htext
    have htexts : (value :: values).map (fun text =>
        (String.ofList (quote text.toList)).toList) =
        ((value :: values).map String.toList).map quote := by
      simp [Function.comp_def]
    unfold words start
    rw [String.toList_intercalate, List.map_map]
    change (((Reader.feed _ ([' '].intercalate ((value :: values).map fun text =>
      (String.ofList (quote text.toList)).toList))).bind finish).map _) = _
    rw [htexts, List.map_cons, feed_intercalate (by rwa [← List.map_cons]), Option.map_some]
    simp

end Shell
end Lib
end Skyscale
