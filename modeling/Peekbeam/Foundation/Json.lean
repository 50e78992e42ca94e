import Mathlib.Data.Int.Notation
import Mathlib.Data.List.Basic
import Mathlib.Data.Nat.Notation
import Mathlib.Tactic.Lemma

/-!
# JSON values and the indented form

`Json φ` is the type of JSON values, with floating-point numbers in an arbitrary type `φ`.
`Json.pretty` writes a value over several lines: every item of an array and every field of an
object on a line of its own, two blanks deeper than the line that opened it.

`FieldPerLine` says as much of an arbitrary printer, for objects only; it is what a client that
does not look into the printer can rely on.
-/

/-- A JSON value. -/
inductive Json (φ : Type)
  | null
  | nat (n : ℕ)
  | int (i : ℤ)
  | float (x : φ)
  | str (s : List Char)
  | arr (items : List (Json φ))
  | obj (fields : List (List Char × Json φ))

namespace Json

variable {φ : Type}

/-! ## Strings -/

def hexDigit (n : ℕ) : Char := "0123456789abcdef".toList.getD n '0'

/-- A character of a string, escaped where JSON requires it. -/
def escapeChar (c : Char) : List Char :=
  if c = '"' then ['\\', '"']
  else if c = '\\' then ['\\', '\\']
  else if c = '\n' then ['\\', 'n']
  else if c = '\r' then ['\\', 'r']
  else if c = '\t' then ['\\', 't']
  else if c.toNat = 8 then ['\\', 'b']
  else if c.toNat = 12 then ['\\', 'f']
  else if c.toNat < 32 then
    ['\\', 'u', '0', '0', hexDigit (c.toNat / 16), hexDigit (c.toNat % 16)]
  else [c]

def quote (s : List Char) : List Char := '"' :: s.flatMap escapeChar ++ ['"']

/-! ## The indented form -/

/-- A new line at an indentation depth. -/
def newline (depth : ℕ) : List Char := '\n' :: List.replicate (2 * depth) ' '

/-- The parts of an array or object between its brackets, each on its own line. -/
def block (opening closing : Char) (depth : ℕ) (parts : List (List Char)) : List Char :=
  if parts = [] then [opening, closing]
  else opening :: [','].intercalate (parts.map fun part => newline (depth + 1) ++ part) ++
    newline depth ++ [closing]

variable (showFloat : φ → List Char)

mutual

/-- A value, on a line indented to `depth`. -/
def pretty (depth : ℕ) : Json φ → List Char
  | .null => "null".toList
  | .nat n => Nat.toDigits 10 n
  | .int i => if i < 0 then '-' :: Nat.toDigits 10 i.natAbs else Nat.toDigits 10 i.natAbs
  | .float x => showFloat x
  | .str s => quote s
  | .arr items => block '[' ']' depth (prettyItems (depth + 1) items)
  | .obj fields => block '\x7b' '\x7d' depth (prettyFields (depth + 1) fields)

def prettyItems (depth : ℕ) : List (Json φ) → List (List Char)
  | [] => []
  | v :: items => pretty depth v :: prettyItems depth items

def prettyFields (depth : ℕ) : List (List Char × Json φ) → List (List Char)
  | [] => []
  | (key, v) :: fields => (quote key ++ [':', ' '] ++ pretty depth v) :: prettyFields depth fields

end

lemma length_prettyFields (depth : ℕ) (fields : List (List Char × Json φ)) :
    (prettyFields showFloat depth fields).length = fields.length := by
  induction fields with
  | nil => simp [prettyFields]
  | cons field fields ih => simp [prettyFields, ih]

/-! ## What a client relies on -/

/-- The printer writes an object that has fields with each field on its own line. -/
def FieldPerLine {ε : Type} (print : Json φ → Except ε (List Char)) : Prop :=
  ∀ fields : List (List Char × Json φ), fields ≠ [] →
    ∃ parts : List (List Char), parts.length = fields.length ∧
      print (.obj fields) =
        .ok ('\x7b' :: [','].intercalate (parts.map fun part => '\n' :: part) ++ ['\n', '\x7d'])

/-- The indented form is one such. -/
theorem fieldPerLine_pretty {ε : Type} :
    FieldPerLine fun v => (.ok (pretty showFloat 0 v) : Except ε (List Char)) := by
  intro fields hne
  refine ⟨(prettyFields showFloat 1 fields).map fun part => [' ', ' '] ++ part, ?_, ?_⟩
  · rw [List.length_map, length_prettyFields]
  · have hparts : prettyFields showFloat 1 fields ≠ [] := fun h => hne (by
      rw [← List.length_eq_zero_iff, ← length_prettyFields showFloat 1 fields, h, List.length_nil])
    simp [pretty, block, hparts, newline, Function.comp_def]

/-- Such a form is never a single line. -/
lemma FieldPerLine.newline_mem {ε : Type} {print : Json φ → Except ε (List Char)}
    (h : FieldPerLine print) {fields : List (List Char × Json φ)} (hne : fields ≠ []) :
    ∃ text, print (.obj fields) = .ok text ∧ '\n' ∈ text := by
  obtain ⟨parts, -, htext⟩ := h fields hne
  exact ⟨_, htext, by simp⟩

end Json
