import DbmlRestore.Proofs.Comment.Assigned

/-!
# Documents

A *document* is a schema in the shape in which regenerated schemas are laid out: its
enums, its tables and its references, in this order, an empty line between each two of
these parts and one at the end. Comments stand before the first part, above the tables,
inside of their bodies, at the ends of the lines of fields, and after the last line.

Names are quoted, and what is written on a line is without braces and comment marks, so
each line of a document is what it was meant to be: an enum header
(`EnumText.isEnumHeader_header`), a table header (`TableText.tableHeader?_header`), a
field (`FieldText.fieldName?_line`), a reference (`RefText.opened?_line`).
-/

namespace DbmlRestore

namespace Text

/-- What can stand on a line without being a line feed, a brace or a comment. -/
structure IsCode (t : Text) : Prop where
  noNewline : '\n' ∉ t
  noReturn : '\r' ∉ t
  noOpen : '\x7b' ∉ t
  noClose : '\x7d' ∉ t
  noMark : holds Line.commentMark t = false

instance (t : Text) : Decidable t.IsCode :=
  decidable_of_iff ('\n' ∉ t ∧ '\r' ∉ t ∧ '\x7b' ∉ t ∧ '\x7d' ∉ t ∧
      holds Line.commentMark t = false)
    ⟨fun ⟨hn, hr, ho, hc, hm⟩ => ⟨hn, hr, ho, hc, hm⟩,
      fun ⟨hn, hr, ho, hc, hm⟩ => ⟨hn, hr, ho, hc, hm⟩⟩

/-- What can stand between quotes. -/
structure IsName (t : Text) : Prop extends IsCode t where
  ne_nil : t ≠ []
  noQuote : '"' ∉ t

instance (t : Text) : Decidable t.IsName :=
  decidable_of_iff (t.IsCode ∧ t ≠ [] ∧ '"' ∉ t)
    ⟨fun ⟨hc, hne, hq⟩ => ⟨hc, hne, hq⟩, fun ⟨hc, hne, hq⟩ => ⟨hc, hne, hq⟩⟩

/-- A name between quotes. -/
def inQuotes (name : Text) : Text := '"' :: name ++ ['"']

/-- Between a first and a last character that are no blanks there is nothing to trim. -/
theorem trim_eq_self {c d : Char} (hc : isBlank c = false) (hd : isBlank d = false) (t : Text) :
    trim (c :: t ++ [d]) = c :: t ++ [d] := by
  rw [List.cons_append, trim_cons hc,
    dropEndWhile_append_of_exists t ⟨d, List.mem_singleton_self d, hd⟩]
  simp [dropEndWhile, hd]

/-- A name in quotes has no blanks at its ends. -/
theorem trim_inQuotes (name : Text) : trim (inQuotes name) = inQuotes name :=
  trim_eq_self (by decide) (by decide) name

/-- A name in quotes is read as the name. -/
theorem quotedName?_inQuotes {name : Text} (h : name.IsName) (rest : Text) :
    Line.quotedName? (inQuotes name ++ rest) = some (name, rest) :=
  Line.quotedName?_eq_some_iff.2 ⟨by rw [inQuotes, List.append_assoc]; rfl, h.ne_nil, h.noQuote⟩

/-- A name is quoted without a comment mark. -/
theorem holds_inQuotes {name : Text} (h : name.IsName) :
    holds Line.commentMark (inQuotes name) = false := by
  have hlast : ∀ t : Text, holds Line.commentMark t = false →
      holds Line.commentMark (t ++ ['"']) = false := by
    intro t ht
    induction t with
    | nil => rfl
    | cons c t ih =>
      rw [holds, Bool.or_eq_false_iff] at ht
      rw [List.cons_append, holds, ih ht.2, Bool.or_false]
      cases t with
      | nil => simp [Line.commentMark, List.isPrefixOf]
      | cons d t => simpa [Line.commentMark, List.isPrefixOf] using ht.1
  have := hlast name h.noMark
  rw [inQuotes, List.cons_append, holds, this]
  rfl

end Text

namespace Line

variable {l : Line}

theorem opens_eq_zero (h : '\x7b' ∉ l) : opens l = 0 := List.count_eq_zero.2 h

theorem closes_eq_zero (h : '\x7d' ∉ l) : closes l = 0 := List.count_eq_zero.2 h

/-- A full-line comment without braces. -/
structure IsNote (l : Line) : Prop extends IsRemark l where
  noNewline : '\n' ∉ l

instance (l : Line) : Decidable (IsNote l) :=
  decidable_of_iff (IsRemark l ∧ '\n' ∉ l) ⟨fun ⟨hr, hn⟩ => ⟨hr, hn⟩, fun ⟨hr, hn⟩ => ⟨hr, hn⟩⟩

/-- A comment for the end of a line, without braces. -/
structure IsTail (c : Text) : Prop where
  isComment : commentMark <+: c
  noNewline : '\n' ∉ c
  noOpen : '\x7b' ∉ c
  noClose : '\x7d' ∉ c

instance (c : Text) : Decidable (IsTail c) :=
  decidable_of_iff (commentMark <+: c ∧ '\n' ∉ c ∧ '\x7b' ∉ c ∧ '\x7d' ∉ c)
    ⟨fun ⟨hm, hn, ho, hc⟩ => ⟨hm, hn, ho, hc⟩, fun ⟨hm, hn, ho, hc⟩ => ⟨hm, hn, ho, hc⟩⟩

/-- The line that closes a block. -/
def close : Line := ['\x7d']

end Line

/-! ## Parts of a document -/

/-- An enum: its name and its values. -/
structure EnumText where
  /-- The enum. -/
  name : Text
  /-- The values, in order. -/
  values : List Text
  isName : name.IsName
  areNames : ∀ v ∈ values, Text.IsName v

/-- A field: its name, the rest of its line, and the comment at the end of it. -/
structure FieldText where
  /-- The field. -/
  name : Text
  /-- What follows the name. -/
  rest : Text
  /-- The comment at the end of the line. -/
  comment? : Option Text
  isName : name.IsName
  isCode : rest.IsCode
  isTail : ∀ c ∈ comment?, Line.IsTail c

/-- A table: its names, its fields, and the comments above it and inside of it. -/
structure TableText where
  /-- The comments above the table. -/
  above : List Line
  /-- The schema, if the name is qualified. -/
  schema : Option Text
  /-- The table. -/
  name : Text
  /-- The comments that open the body. -/
  inside : List Line
  /-- The fields, in order. -/
  fields : List FieldText
  isName : name.IsName
  noDot : '.' ∉ name
  isSchema : ∀ s ∈ schema, Text.IsName s
  areNotes : ∀ l ∈ above ++ inside, Line.IsNote l
  /-- Fields of the same name have the same comment. -/
  sameComment : ∀ f ∈ fields, ∀ g ∈ fields, f.name = g.name → f.comment? = g.comment?

/-- A reference, written on one line. -/
structure RefText where
  /-- What follows the keyword and the colon. -/
  text : Text
  isCode : text.IsCode

/-- A document. -/
structure Document where
  /-- The comments before the first part. -/
  header : List Line
  /-- The enums, in order. -/
  enums : List EnumText
  /-- The tables, in order. -/
  tables : List TableText
  /-- The references, in order. -/
  refs : List RefText
  /-- The comments after the last line. -/
  footer : List Line
  areNotes : ∀ l ∈ header ++ footer, Line.IsNote l
  tables_ne_nil : tables ≠ []
  nodup : (tables.map (·.name)).Nodup
  /-- Above the first definition stand only the comments of the header. -/
  firstAbove : enums = [] → ∀ t ∈ tables.head?, t.above = []

namespace EnumText

variable (e : EnumText)

/-- The line that opens the enum. -/
def header : Line := ['E', 'n', 'u', 'm', ' '] ++ Text.inQuotes e.name ++ [' ', '\x7b']

/-- The line of a value. -/
def valueLine (v : Text) : Line := ' ' :: ' ' :: Text.inQuotes v

/-- The lines of the enum. -/
def lines : List Line := e.header :: e.values.map valueLine ++ [Line.close]

end EnumText

namespace FieldText

variable (f : FieldText)

/-- The line of the field without its comment. -/
def line : Line := ' ' :: ' ' :: Text.inQuotes f.name ++ ' ' :: f.rest

/-- The line of the field. -/
def fullLine : Line :=
  match f.comment? with
  | some c => f.line ++ ' ' :: c
  | none => f.line

end FieldText

namespace TableText

variable (t : TableText)

/-- The schema and a dot, if the name is qualified. -/
def qualifier : Text :=
  match t.schema with
  | some s => Text.inQuotes s ++ ['.']
  | none => []

/-- The line that opens the table. -/
def header : Line :=
  ['T', 'a', 'b', 'l', 'e', ' '] ++ t.qualifier ++ Text.inQuotes t.name ++ [' ', '\x7b']

/-- The lines of the table without its comments. -/
def lines : List Line := t.header :: t.fields.map (·.line) ++ [Line.close]

/-- The lines of the table. -/
def fullLines : List Line :=
  t.above ++ t.header :: t.inside ++ t.fields.map (·.fullLine) ++ [Line.close]

/-- The comments of the table. -/
def comments : TableComments where
  above? := if t.above.isEmpty then none else some (Text.unlines t.above)
  inside := t.inside
  ends := t.fields.filterMap fun f => f.comment?.map fun c => (f.name, c)

end TableText

/-- The line of the reference. -/
def RefText.line (r : RefText) : Line := ['R', 'e', 'f', ':'] ++ r.text

namespace Document

variable (d : Document)

/-- The lines of the references, after an empty line if there are any. -/
def refLines : List Line := if d.refs.isEmpty then [] else [] :: d.refs.map (·.line)

/-- The lines of the enums, before an empty line if there are any. -/
def enumLines : List Line :=
  if d.enums.isEmpty then [] else d.enums.flatMap (·.lines) ++ [[]]

/-- The lines of the document without its comments. -/
def bareLines : List Line :=
  d.enumLines ++ d.tables.flatMap (·.lines) ++ d.refLines ++ [[]]

/-- The lines of the document. -/
def lines : List Line :=
  (if d.header.isEmpty then [] else d.header ++ [[]]) ++ d.enumLines ++
    d.tables.flatMap (·.fullLines) ++ d.refLines ++ [[]] ++
    (if d.footer.isEmpty then [] else [] :: d.footer)

/-- The document as a text. -/
def text : Text := Text.unlines d.lines

/-- The document without its comments, as a text. -/
def bareText : Text := Text.unlines d.bareLines

/-- The lines of a regenerated text: those of the document without its comments, the
    tables in some order and any number of empty lines around the parts. -/
def regeneratedLines (tables : List TableText) (before between after atEnd : Nat) : List Line :=
  List.replicate before [] ++ d.enums.flatMap (·.lines) ++ List.replicate between [] ++
    tables.flatMap (·.lines) ++ List.replicate after [] ++ d.refs.map (·.line) ++
    List.replicate atEnd []

/-- The comments of the document. -/
def comments : List Comment :=
  Comment.assigned (if d.header.isEmpty then none else some (Text.unlines d.header))
    (if d.footer.isEmpty then none else some (Text.unlines d.footer))
    TableText.name TableText.comments d.tables

end Document

/-! ## The lines are what they were meant to be -/

namespace EnumText

variable (e : EnumText)

/-- The header of an enum has no blanks at its ends. -/
theorem trim_header : Text.trim e.header = e.header := by
  have h : e.header =
      'E' :: (['n', 'u', 'm', ' '] ++ Text.inQuotes e.name ++ [' ']) ++ ['\x7b'] := by
    simp [header]
  rw [h]
  exact Text.trim_eq_self (by decide) (by decide) _

/-- The header of an enum is none of a table. -/
theorem tableHeader?_header : Line.tableHeader? (Text.trim e.header) = none := by
  rw [trim_header]
  exact Line.tableHeader?_cons_of_ne (by decide) _

theorem isEnumHeader_header : Line.isEnumHeader (Text.trim e.header) = true := by
  rw [trim_header]
  rfl

/-- The header of an enum opens a block of an enum. -/
theorem opened?_header :
    Block.opened? (Text.trim e.header) = some { kind := .enum, lines := [] } := by
  rw [Block.opened?, tableHeader?_header, isEnumHeader_header]
  rfl

/-- It opens one brace, and its name opens none. -/
theorem braces_header : Line.opens e.header = 1 ∧ Line.closes e.header = 0 := by
  have ho := Line.opens_eq_zero e.isName.noOpen
  have hc := Line.closes_eq_zero e.isName.noClose
  constructor <;> simp_all [header, Text.inQuotes, Line.opens, Line.closes]

end EnumText

/-! ### Fields and values -/

/-- A line that starts with a quote: it is no header and no comment. -/
theorem Line.of_trim_eq_quote {l : Line} {u : Text} (h : Text.trim l = '"' :: u) :
    Block.opened? (Text.trim l) = none ∧ isComment (Text.trim l) = false ∧
      opensComment (Text.trim l) = false ∧ isBlankLine l = false := by
  have hblank : isBlankLine l = false := by
    rw [← Bool.not_eq_true, isBlankLine, List.all_eq_true, ← Text.trim_eq_nil_iff, h]
    exact List.cons_ne_nil _ _
  rw [h]
  exact ⟨opened?_cons_of_ne (by decide) (by decide) (by decide) _, rfl, rfl, hblank⟩

namespace EnumText

theorem trim_valueLine (v : Text) : Text.trim (valueLine v) = Text.inQuotes v := by
  have h := Text.trim_append_of_blank_left (s := [' ', ' ']) (List.all_eq_true.1 rfl)
    (Text.inQuotes v)
  rw [Text.trim_inQuotes] at h
  exact h

/-- A value of an enum is without braces. -/
theorem braces_valueLine {v : Text} (hv : v.IsName) :
    Line.opens (valueLine v) = 0 ∧ Line.closes (valueLine v) = 0 := by
  have ho := Line.opens_eq_zero hv.noOpen
  have hc := Line.closes_eq_zero hv.noClose
  constructor <;> simp_all [valueLine, Text.inQuotes, Line.opens, Line.closes]

end EnumText

namespace FieldText

variable (f : FieldText)

/-- A field line starts with the quoted name, so that the name can be read off. -/
theorem exists_trim_line : ∃ u, Text.trim f.line = Text.inQuotes f.name ++ u := by
  have htrim : Text.trim f.line = Text.trim (Text.inQuotes f.name ++ ' ' :: f.rest) :=
    Text.trim_append_of_blank_left (s := [' ', ' ']) (List.all_eq_true.1 rfl) _
  have hne : Text.trim (Text.inQuotes f.name) ≠ [] := by
    rw [Text.trim_inQuotes]
    exact List.cons_ne_nil _ _
  obtain ⟨u, hu⟩ := Text.trim_append_of_ne_nil hne (' ' :: f.rest)
  rw [Text.trim_inQuotes] at hu
  exact ⟨u, htrim.trans hu⟩

/-- The name of a field is read off its line. -/
theorem fieldName?_line : Line.fieldName? (Text.trim f.line) = some f.name := by
  obtain ⟨u, hu⟩ := f.exists_trim_line
  rw [hu, Line.fieldName?, Text.quotedName?_inQuotes f.isName]
  rfl

theorem tableHeader?_line : Line.tableHeader? (Text.trim f.line) = none := by
  have hopen := (Line.of_fieldName? f.fieldName?_line []).1
  rw [List.append_nil] at hopen
  exact (Line.opened?_eq_none_iff.1 hopen).1

/-- The line of a field is without braces. -/
theorem braces_line : Line.opens f.line = 0 ∧ Line.closes f.line = 0 := by
  have ho := Line.opens_eq_zero f.isName.noOpen
  have hc := Line.closes_eq_zero f.isName.noClose
  have ho' := Line.opens_eq_zero f.isCode.noOpen
  have hc' := Line.closes_eq_zero f.isCode.noClose
  constructor <;> simp_all [line, Text.inQuotes, Line.opens, Line.closes]

theorem isBare_line : Line.IsBare f.line := by
  refine ⟨?_, (Line.of_trim_eq_quote (l := f.line) f.exists_trim_line.choose_spec).2.2.1⟩
  have hquoted : Text.holds Line.commentMark (' ' :: ' ' :: Text.inQuotes f.name) = false := by
    rw [Text.holds, Text.holds, Text.holds_inQuotes f.isName]
    rfl
  rw [line, Text.holds_commentMark_append_space, hquoted, f.isCode.noMark]
  rfl

theorem newline_not_mem_line : '\n' ∉ f.line := by
  have := f.isName.noNewline
  have := f.isCode.noNewline
  simp_all [line, Text.inQuotes]

theorem getLast?_line : f.line.getLast? ≠ some '\r' := by
  intro h
  have hmem : '\r' ∈ f.line := List.mem_of_getLast? h
  have := f.isName.noReturn
  have := f.isCode.noReturn
  simp_all [line, Text.inQuotes]

/-- The full line is the line with the comment at its end. -/
theorem dressed_fullLine : Line.Dressed f.line f.fullLine := by
  rw [fullLine]
  cases hc : f.comment? with
  | none => exact .plain _
  | some c =>
    have ht := f.isTail c hc
    exact .comment f.fieldName?_line (.inl rfl) ht.isComment (Line.opens_eq_zero ht.noOpen)
      (Line.closes_eq_zero ht.noClose)

/-- The line of a field with its comment is one line. -/
theorem newline_not_mem_fullLine : '\n' ∉ f.fullLine := by
  rw [fullLine]
  cases hc : f.comment? with
  | none => exact f.newline_not_mem_line
  | some c =>
    intro h
    rcases List.mem_append.1 h with h | h
    · exact f.newline_not_mem_line h
    · exact (f.isTail c hc).noNewline (List.mem_of_ne_of_mem (by decide) h)

end FieldText

/-! ### Tables and references -/

namespace TableText

variable (t : TableText)

theorem trim_header : Text.trim t.header = t.header := by
  have h : t.header = 'T' :: (['a', 'b', 'l', 'e', ' '] ++ t.qualifier ++ Text.inQuotes t.name ++
      [' ']) ++ ['\x7b'] := by
    simp [header]
  rw [h]
  exact Text.trim_eq_self (by decide) (by decide) _

/-- The header of a table is read as its schema and its name. -/
theorem tableHeader?_header :
    Line.tableHeader? (Text.trim t.header) = some ⟨t.schema, t.name⟩ := by
  have hname : ∀ {n : Text}, n.IsName → ∀ rest,
      Line.name? (Text.inQuotes n ++ rest) = some (n, rest) :=
    fun hn rest => by rw [Line.name?, Text.quotedName?_inQuotes hn]; rfl
  -- The keyword and the blanks behind it are passed over.
  have hkey : Line.tableHeader? t.header = Line.headerNames? (List.dropWhile Text.isAsciiBlank
      (t.qualifier ++ (Text.inQuotes t.name ++ [' ', '\x7b']))) := by
    rw [header, List.append_assoc, List.append_assoc]
    rfl
  rw [trim_header, hkey, qualifier]
  cases hs : t.schema with
  | none =>
    have hdrop : List.dropWhile Text.isAsciiBlank (Text.inQuotes t.name ++ [' ', '\x7b']) =
        Text.inQuotes t.name ++ [' ', '\x7b'] := rfl
    show Line.headerNames? (List.dropWhile _ (Text.inQuotes t.name ++ [' ', '\x7b'])) = _
    rw [hdrop, Line.headerNames?, hname t.isName]
    rfl
  -- The schema, the dot, and the name of the table are read one after the other.
  | some s =>
    have hdrop : List.dropWhile Text.isAsciiBlank
        (Text.inQuotes s ++ ('.' :: (Text.inQuotes t.name ++ [' ', '\x7b']))) =
          Text.inQuotes s ++ ('.' :: (Text.inQuotes t.name ++ [' ', '\x7b'])) := rfl
    have hdot : Line.dottedName? ('.' :: (Text.inQuotes t.name ++ [' ', '\x7b'])) =
        some t.name := by
      rw [Line.dottedName?, hname t.isName]
      rfl
    show Line.headerNames? (List.dropWhile _ ((Text.inQuotes s ++ ['.']) ++ _)) = _
    rw [List.append_assoc, List.singleton_append, hdrop, Line.headerNames?,
      hname (t.isSchema s hs)]
    show (match Line.dottedName? _ with | some _ => _ | none => _) = _
    rw [hdot]

/-- The header of a table opens a block with the names of the table. -/
theorem opened?_header : Block.opened? (Text.trim t.header) =
    some { kind := .table, lines := [], table := some t.name, schema := t.schema } := by
  rw [Block.opened?, tableHeader?_header]

/-- The header of a table opens one brace, and its names open none. -/
theorem braces_header : Line.opens t.header = 1 ∧ Line.closes t.header = 0 := by
  have ho := Line.opens_eq_zero t.isName.noOpen
  have hc := Line.closes_eq_zero t.isName.noClose
  cases hs : t.schema with
  | none => constructor <;> simp_all [header, qualifier, Text.inQuotes, Line.opens, Line.closes]
  | some s =>
    have ho' := Line.opens_eq_zero (t.isSchema s hs).noOpen
    have hc' := Line.closes_eq_zero (t.isSchema s hs).noClose
    constructor <;> simp_all [header, qualifier, Text.inQuotes, Line.opens, Line.closes]

end TableText

namespace RefText

variable (r : RefText)

theorem exists_trim_line : ∃ u, Text.trim r.line = 'R' :: 'e' :: 'f' :: ':' :: u :=
  Text.trim_append_of_ne_nil (s := ['R', 'e', 'f', ':']) (by decide) r.text

/-- A reference is no header of a table. -/
theorem tableHeader?_line : Line.tableHeader? (Text.trim r.line) = none := by
  obtain ⟨u, hu⟩ := r.exists_trim_line
  rw [hu]
  rfl

/-- A reference opens a block of its kind. -/
theorem opened?_line : Block.opened? (Text.trim r.line) = some { kind := .ref, lines := [] } := by
  obtain ⟨u, hu⟩ := r.exists_trim_line
  rw [hu]
  rfl

theorem braces_line : Line.opens r.line = 0 ∧ Line.closes r.line = 0 := by
  have ho := Line.opens_eq_zero r.isCode.noOpen
  have hc := Line.closes_eq_zero r.isCode.noClose
  constructor <;> simp_all [line, Line.opens, Line.closes]

end RefText

end DbmlRestore
