import CompositionFunction.Toml.Document
import CompositionFunction.Proofs.Toml.Scalar

/-!
# Documents of TOML as they are written

A plain document has comments, empty lines, headers, and entries of plain values under keys without
quotes. It is read line by line, and each line says what it was written for.

* `PlainLine` : a line as it is written, and what it says.
* `line_plain` : one line is read back, whatever may follow it.
* `parse?_plain` : the table of a plain document is that of what its lines say.
-/

set_option autoImplicit false

namespace CompositionFunction.Toml

open Reader

/-! ## Blanks and line ends -/

section Lines

variable {cs rest : List Char}

theorem blanks_append {run : List Char} (hrun : ∀ c ∈ run, isBlank c = true)
    (h : Ends isBlank rest) : blanks (run ++ rest) = some ((), rest) := by
  rw [blanks, bind_of_some (span_append hrun h)]
  rfl

theorem blanks_of_ends (h : Ends isBlank cs) : blanks cs = some ((), cs) :=
  blanks_append (List.forall_mem_nil _) h

theorem lineEnd_newline (rest : List Char) : lineEnd ('\n' :: rest) = some ((), rest) := rfl

theorem comment_of_ends (h : Ends (· = '#') cs) : comment cs = none :=
  bind_of_none (char_of_ends h)

theorem newline_of_ends (hfeed : Ends (· = '\n') cs) (hreturn : Ends (· = '\r') cs) :
    newline cs = none := by
  rw [newline, orElse_of_none (word_of_ends hfeed)]
  exact word_of_ends hreturn

theorem emptyLine_of_ends (hmark : Ends (· = '#') cs) (hfeed : Ends (· = '\n') cs)
    (hreturn : Ends (· = '\r') cs) : emptyLine cs = none := by
  rw [emptyLine, orElse_of_none (bind_of_none (comment_of_ends hmark))]
  exact bind_of_none (newline_of_ends hfeed hreturn)

theorem headerLine_of_ends (h : Ends (· = '[') cs) : headerLine cs = none := by
  rw [headerLine, orElse_of_none (bind_of_none (word_of_ends h))]
  exact bind_of_none (char_of_ends h)

end Lines

/-! ## Keys -/

theorem isKeyChar_of_isDigit {c : Char} (h : c.isDigit = true) : isKeyChar c = true := by
  simp [isKeyChar, Char.isAlphanum, h]

/-- No blank can stand in a class that has neither of the two. -/
theorem apart_blank {p : Char → Bool} (hspace : p ' ' = false) (htab : p '\t' = false) :
    Apart p isBlank := by
  intro c hc
  exact Bool.or_eq_false_iff.2 ⟨apart_mark hspace c hc, apart_mark htab c hc⟩

/-- A key that needs no quotes. -/
structure PlainKey where
  chars : List Char
  ne_nil : chars ≠ []
  isKeyChar : ∀ c ∈ chars, isKeyChar c = true

namespace PlainKey

variable (k : PlainKey) {rest : List Char}

/-- The key as it is read. -/
def key : Key := ⟨[], String.ofList k.chars⟩

/-- A key does not begin with a character that cannot stand in it. -/
theorem ends {p : Char → Bool} (h : Apart Toml.isKeyChar p) (rest : List Char) :
    Ends p (k.chars ++ rest) := h.ends k.ne_nil k.isKeyChar rest

theorem ends_mark {c : Char} (hc : Toml.isKeyChar c = false) (rest : List Char) :
    Ends (· = c) (k.chars ++ rest) := k.ends (apart_mark hc) rest

theorem keyPart_plain {gap : List Char} (hgap : ∀ c ∈ gap, isBlank c = true)
    (hrest : Ends isBlank rest) (hend : Ends Toml.isKeyChar (gap ++ rest)) :
    keyPart (k.chars ++ (gap ++ rest)) = some (String.ofList k.chars, rest) := by
  have hname : (basicString <|> literalString <|> (String.ofList <$> span1 Toml.isKeyChar))
      (k.chars ++ (gap ++ rest)) = some (String.ofList k.chars, gap ++ rest) := by
    rw [orElse_of_none (basicString_of_ends (k.ends_mark (by decide) _)),
      orElse_of_none (literalString_of_ends (k.ends_mark (by decide) _))]
    exact map_of_some (span1_append k.ne_nil k.isKeyChar hend)
  have hblank : Ends isBlank (k.chars ++ (gap ++ rest)) :=
    k.ends (apart_blank (by decide) (by decide)) _
  rw [keyPart, bind_of_some (blanks_of_ends hblank), bind_of_some hname,
    bind_of_some (blanks_append hgap hrest)]
  rfl

/-- A key without quotes is read up to what follows the blanks behind it. -/
theorem key_plain {gap : List Char} (hgap : ∀ c ∈ gap, isBlank c = true)
    (hrest : Ends isBlank rest) (hend : Ends Toml.isKeyChar (gap ++ rest))
    (hpoint : Ends (· = '.') rest) : Toml.key (k.chars ++ (gap ++ rest)) = some (k.key, rest) := by
  have hlength : decide ([String.ofList k.chars].length ≤ greatestDepth) = true := rfl
  rw [Toml.key, bind_of_some (k.keyPart_plain hgap hrest hend),
    bind_of_some (many_of_none (bind_of_none (char_of_ends hpoint))),
    bind_of_some (require_of_true hlength rest)]
  rfl

end PlainKey

/-! ## Lines -/

/-- A line as it is written. -/
inductive PlainLine where
  | comment (text : List Char) (isCommentChar : ∀ c ∈ text, isCommentChar c = true)
  | empty
  | header (key : PlainKey)
  | entry (key : PlainKey) (value : PlainValue)

namespace PlainLine

/-- The characters of a line with its end. -/
def text : PlainLine → List Char
  | comment text _ => '#' :: (text ++ ['\n'])
  | empty => ['\n']
  | header key => '[' :: (key.chars ++ [']', '\n'])
  | entry key value => key.chars ++ ([' ', '=', ' '] ++ (value.text ++ ['\n']))

/-- What a line says. -/
def meaning : PlainLine → Option Line
  | comment _ _ => none
  | empty => none
  | header key => some (.header key.key)
  | entry key value => some (.entry key.key value.item)

/-- A character that a line may begin with: a mark, or a character of a key. -/
def startsLine (c : Char) : Bool := c = '#' || c = '\n' || c = '[' || isKeyChar c

theorem text_ne_nil (l : PlainLine) : l.text ≠ [] := by
  cases l <;> simp [text]

/-- A line does not begin with a character that none begins with. -/
theorem ends_text {p : Char → Bool} (h : Apart startsLine p) (l : PlainLine) (rest : List Char) :
    Ends p (l.text ++ rest) := by
  cases l with
  | comment text _ => exact ends_cons.2 (h '#' rfl)
  | empty => exact ends_cons.2 (h '\n' rfl)
  | header key => exact ends_cons.2 (h '[' rfl)
  | entry key value =>
    rw [text, List.append_assoc]
    exact key.ends (fun c hc => h c (by rw [startsLine, hc, Bool.or_true])) _

end PlainLine

section Line

variable {rest : List Char}

theorem emptyLine_comment {text : List Char} (h : ∀ c ∈ text, isCommentChar c = true) :
    emptyLine ('#' :: (text ++ '\n' :: rest)) = some (none, rest) := by
  have hcomment : comment ('#' :: (text ++ '\n' :: rest)) = some ((), '\n' :: rest) := by
    rw [comment, bind_of_some (char_cons '#' _),
      bind_of_some (span_append h (ends_cons.2 (by decide)))]
    rfl
  exact orElse_of_some (bind_of_some hcomment)

theorem headerLine_plain (k : PlainKey) :
    headerLine ('[' :: (k.chars ++ ']' :: '\n' :: rest)) = some (some (.header k.key), rest) := by
  have hbracket : word ['[', '['] ('[' :: (k.chars ++ ']' :: '\n' :: rest)) = none := by
    rw [word_cons]
    exact word_of_ends (k.ends_mark (by decide) _)
  have hkey : key (k.chars ++ ']' :: '\n' :: rest) = some (k.key, ']' :: '\n' :: rest) :=
    k.key_plain (List.forall_mem_nil _) (ends_cons.2 (by decide)) (ends_cons.2 (by decide))
      (ends_cons.2 (by decide))
  rw [headerLine, orElse_of_none (bind_of_none hbracket), bind_of_some (char_cons '[' _),
    bind_of_some hkey, bind_of_some (char_cons ']' _), bind_of_some (lineEnd_newline rest)]
  rfl

theorem value_plain (v : PlainValue) (h : Ends continuesNumber rest) :
    ∀ levels, value levels (v.text ++ rest) = some (v.item, rest)
  | 0 => scalar_plain v h
  | _ + 1 => orElse_of_some (scalar_plain v h)

/-- A plain value could stand as a key. -/
theorem PlainValue.isKeyChar_of_mem (v : PlainValue) : ∀ c ∈ v.text, isKeyChar c = true := by
  cases v with
  | count n lt => exact fun c hc => isKeyChar_of_isDigit (Text.isDigit_of_mem_digits hc)
  | truth b => cases b <;> exact List.all_eq_true.1 (by decide)

theorem PlainValue.text_ne_nil (v : PlainValue) : v.text ≠ [] := by
  cases v with
  | count n lt => exact Text.digits_ne_nil n
  | truth b => cases b <;> decide

theorem entryLine_plain (k : PlainKey) (v : PlainValue) :
    entryLine (k.chars ++ ([' ', '=', ' '] ++ (v.text ++ '\n' :: rest))) =
      some (some (.entry k.key v.item), rest) := by
  have hkey : key (k.chars ++ ([' '] ++ '=' :: ' ' :: (v.text ++ '\n' :: rest))) =
      some (k.key, '=' :: ' ' :: (v.text ++ '\n' :: rest)) :=
    k.key_plain (List.forall_mem_singleton.2 rfl) (ends_cons.2 (by decide))
      (ends_cons.2 (by decide)) (ends_cons.2 (by decide))
  have hblank : blanks ([' '] ++ (v.text ++ '\n' :: rest)) = some ((), v.text ++ '\n' :: rest) :=
    blanks_append (List.forall_mem_singleton.2 rfl)
      ((apart_blank (by decide) (by decide)).ends v.text_ne_nil v.isKeyChar_of_mem _)
  have hvalue : value greatestDepth (v.text ++ '\n' :: rest) = some (v.item, '\n' :: rest) :=
    value_plain v (ends_cons.2 (by decide)) greatestDepth
  have hentry : keyValue (value greatestDepth)
      (k.chars ++ ([' ', '=', ' '] ++ (v.text ++ '\n' :: rest))) =
        some ((k.key, v.item), '\n' :: rest) := by
    rw [keyValue, show [' ', '=', ' '] ++ (v.text ++ '\n' :: rest) =
      [' '] ++ '=' :: ' ' :: (v.text ++ '\n' :: rest) from rfl, bind_of_some hkey,
      bind_of_some (char_cons '=' _), show ' ' :: (v.text ++ '\n' :: rest) =
      [' '] ++ (v.text ++ '\n' :: rest) from rfl, bind_of_some hblank, bind_of_some hvalue]
    rfl
  rw [entryLine, bind_of_some hentry]
  exact bind_of_some (lineEnd_newline rest)

/-- **One line is read back**, whatever follows it on the next line. -/
theorem line_plain (l : PlainLine) (hrest : Ends isBlank rest) :
    line (l.text ++ rest) = some (l.meaning, rest) := by
  have hline : (emptyLine <|> headerLine <|> entryLine) (l.text ++ rest) =
      some (l.meaning, rest) := by
    cases l with
    | comment text h =>
      rw [PlainLine.text, List.cons_append, List.append_assoc]
      exact orElse_of_some (emptyLine_comment h)
    | empty => exact orElse_of_some rfl
    | header k =>
      rw [PlainLine.text, List.cons_append, List.append_assoc,
        orElse_of_none (emptyLine_of_ends (ends_cons.2 (by decide)) (ends_cons.2 (by decide))
          (ends_cons.2 (by decide)))]
      exact orElse_of_some (headerLine_plain k)
    | entry k v =>
      rw [PlainLine.text, List.append_assoc, List.append_assoc, List.append_assoc,
        orElse_of_none (emptyLine_of_ends (k.ends_mark (by decide) _)
          (k.ends_mark (by decide) _) (k.ends_mark (by decide) _)),
        orElse_of_none (headerLine_of_ends (k.ends_mark (by decide) _))]
      exact entryLine_plain k v
  rw [line, bind_of_some hline, bind_of_some (blanks_of_ends hrest)]
  rfl

end Line

/-! ## Documents -/

theorem ends_lines {p : Char → Bool} (h : Apart PlainLine.startsLine p) (ls : List PlainLine) :
    Ends p (ls.flatMap PlainLine.text) := by
  cases ls with
  | nil => exact ends_nil p
  | cons l ls => exact l.ends_text h _

theorem ends_blank_lines (ls : List PlainLine) : Ends isBlank (ls.flatMap PlainLine.text) :=
  ends_lines (apart_blank (by decide) (by decide)) ls

/-- The lines are read one after the other. -/
theorem takes_lines (ls : List PlainLine) :
    Takes line (ls.flatMap PlainLine.text) (ls.map PlainLine.meaning) [] := by
  induction ls with
  | nil => exact .stop rfl
  | cons l ls ih =>
    have hshorter : (ls.flatMap PlainLine.text).length <
        (l.text ++ ls.flatMap PlainLine.text).length := by
      rw [List.length_append]
      exact Nat.lt_add_of_pos_left (List.length_pos_iff.2 l.text_ne_nil)
    exact .next (line_plain l (ends_blank_lines ls)) hshorter ih

/-- **The table of a plain document** is that of what its lines say. -/
theorem parse?_plain (ls : List PlainLine) :
    parse? (String.ofList (ls.flatMap PlainLine.text)) =
      Table.ofLines? (ls.filterMap PlainLine.meaning) := by
  have hmark : Ends (· = '\ufeff') (ls.flatMap PlainLine.text) :=
    ends_lines (apart_mark (by decide)) ls
  have hlines : lines (ls.flatMap PlainLine.text) = some (ls.filterMap PlainLine.meaning, []) := by
    rw [lines, bind_of_some (optional?_of_none (char_of_ends hmark)),
      bind_of_some (blanks_of_ends (ends_blank_lines ls)),
      bind_of_some (many_of_takes (takes_lines ls)), List.filterMap_map]
    rfl
  rw [parse?, String.toList_ofList, hlines]
  rfl

end CompositionFunction.Toml
