import DbmlRestore.Proofs.Line.Forms

/-!
# The grammar of table headers

A table header is the word `table`, blanks, and one or two *tokens*, with anything behind them. A
token is a name in quotes, or a run of letters, digits and underscores (`Line.IsToken`). A text may
start with several tokens, as a part of a run is a run; the names on a header are those of the
longest tokens (`Line.IsNamed`). The first of two tokens with a dot between them is the schema.
Where a dot is followed by no token the first one is the table.

The scanners look for the longest token at once and never go back to a shorter one. They lose
nothing by that, as no token that is followed by a dot can be made longer (`Line.name?_of_dot`). So
what they accept is this grammar, with its names (`Line.headerNames?_eq_some_iff`,
`Line.isSome_headerNames?_iff`).
-/

namespace DbmlRestore

namespace Line

/-! ## The grammar -/

/-- The letters and digits of ASCII, and the underscore. -/
def IsWordChar (c : Char) : Prop :=
  'a' ≤ c ∧ c ≤ 'z' ∨ 'A' ≤ c ∧ c ≤ 'Z' ∨ '0' ≤ c ∧ c ≤ '9' ∨ c = '_'

/-- A token, as it is written, with its name. -/
inductive IsToken : Text → Text → Prop where
  | quoted {name : Text} : name ≠ [] → '"' ∉ name → IsToken ('"' :: name ++ ['"']) name
  | bare {name : Text} : name ≠ [] → (∀ c ∈ name, IsWordChar c) → IsToken name name

/-- The text starts with a token of this name, which `rest` follows. -/
def StartsWith (t name rest : Text) : Prop :=
  ∃ token, IsToken token name ∧ t = token ++ rest

/-- The text starts with a token of this name, and with no longer one. -/
def StartsWithLongest (t name rest : Text) : Prop :=
  StartsWith t name rest ∧ ∀ name' rest', StartsWith t name' rest' → rest.length ≤ rest'.length

/-- The text starts with these names. A single one is that of the table, if the text cannot be read
    as two tokens with a dot between them. -/
inductive IsNamed : Text → TableHeader → Prop where
  | qualified {t u schema table rest : Text} : StartsWith t schema ('.' :: u) →
      StartsWithLongest u table rest → IsNamed t ⟨some schema, table⟩
  | plain {t table rest : Text} :
      (∀ schema u table' rest', StartsWith t schema ('.' :: u) → ¬ StartsWith u table' rest') →
      StartsWithLongest t table rest → IsNamed t ⟨none, table⟩

/-- The word `table`, its letters of either case, and one or more blanks of ASCII. -/
def IsOpening (start : Text) : Prop :=
  ∃ word blanks, start = word ++ blanks ∧ word.map Char.toLower = ['t', 'a', 'b', 'l', 'e'] ∧
    blanks ≠ [] ∧ ∀ c ∈ blanks, c ∈ [' ', '\t', '\n', '\r', '\x0b', '\x0c']

variable {x t u start name rest schema table : Text} {h : TableHeader} {c : Char}

/-! ## Characters -/

/-- The characters of a bare name are the word characters. -/
theorem isNameChar_iff : isNameChar c = true ↔ IsWordChar c := by
  have hupper : c.isUpper = true ↔ 'A' ≤ c ∧ c ≤ 'Z' := decide_eq_true_iff
  have hlower : c.isLower = true ↔ 'a' ≤ c ∧ c ≤ 'z' :=
    Bool.and_eq_true_iff.trans (and_congr decide_eq_true_iff decide_eq_true_iff)
  have hdigit : c.isDigit = true ↔ '0' ≤ c ∧ c ≤ '9' :=
    Bool.and_eq_true_iff.trans (and_congr decide_eq_true_iff decide_eq_true_iff)
  show (c.isUpper || c.isLower || c.isDigit || c == '_') = true ↔ _
  rw [Bool.or_eq_true, Bool.or_eq_true, Bool.or_eq_true, hupper, hlower, hdigit, beq_iff_eq,
    IsWordChar, or_assoc, or_assoc, or_left_comm]

theorem isAsciiBlank_iff :
    Text.isAsciiBlank c = true ↔ c ∈ [' ', '\t', '\n', '\r', '\x0b', '\x0c'] := by
  have heq : ∀ d : Char, c = d ↔ c.toNat = d.toNat := fun d =>
    ⟨fun h => h ▸ rfl, fun h => Char.ext (UInt32.toNat_inj.1 h)⟩
  simp only [Text.isAsciiBlank, Bool.or_eq_true, Bool.and_eq_true, decide_eq_true_eq, beq_iff_eq,
    List.mem_cons, List.not_mem_nil, or_false, heq]
  show _ ↔ c.toNat = 32 ∨ c.toNat = 9 ∨ c.toNat = 10 ∨ c.toNat = 13 ∨ c.toNat = 11 ∨ c.toNat = 12
  omega

/-- Blanks end no name, and start none. -/
theorem isAsciiBlank_of_isNameChar (h : isNameChar c = true) : Text.isAsciiBlank c = false := by
  refine Bool.eq_false_iff.2 fun hblank => ?_
  have hmem := isAsciiBlank_iff.1 hblank
  simp only [List.mem_cons, List.not_mem_nil, or_false] at hmem
  rcases hmem with rfl | rfl | rfl | rfl | rfl | rfl <;> exact absurd h (by decide)

/-! ## Tokens -/

/-- What is not in quotes is no quoted name. -/
theorem quotedName?_cons_of_ne (hc : c ≠ '"') (t : Text) : quotedName? (c :: t) = none := by
  rw [quotedName?]
  exact fun u hu => hc (List.cons.inj hu).1

/-- The scanners read on from a token to the end of its run, if there is more of it. -/
theorem exists_name?_of_startsWith (ht : StartsWith t name rest) :
    ∃ more last, rest = more ++ last ∧ (∀ c ∈ more, isNameChar c = true) ∧
      name? t = some (name ++ more, last) := by
  obtain ⟨token, htoken, rfl⟩ := ht
  cases htoken with
  | quoted hne hquote =>
    have hquoted : quotedName? ('"' :: name ++ ['"'] ++ rest) = some (name, rest) :=
      quotedName?_eq_some_iff.2 ⟨by simp, hne, hquote⟩
    refine ⟨[], rest, rfl, List.forall_mem_nil _, ?_⟩
    rw [name?, hquoted, List.append_nil]
    rfl
  | bare hne hword =>
    have hword : ∀ c ∈ name, isNameChar c = true := fun c hc => isNameChar_iff.2 (hword c hc)
    obtain ⟨c, name, rfl⟩ := List.exists_cons_of_ne_nil hne
    -- A run does not start with a quote, so it is not taken for a quoted name.
    have hquote : c ≠ '"' := by
      rintro rfl
      exact absurd (hword _ List.mem_cons_self) (by decide)
    refine ⟨rest.takeWhile isNameChar, rest.dropWhile isNameChar,
      List.takeWhile_append_dropWhile.symm, fun c hc => List.mem_takeWhile_imp hc, ?_⟩
    rw [name?, List.cons_append, quotedName?_cons_of_ne hquote, bareName?, ← List.cons_append,
      List.takeWhile_append_of_pos hword, List.dropWhile_append_of_pos hword]
    rfl

/-- What the scanners read is a token. -/
theorem startsWith_of_name? (ht : name? t = some (name, rest)) : StartsWith t name rest := by
  rw [name?, Option.orElse_eq_orElse, Option.orElse_eq_or, Option.or_eq_some_iff] at ht
  rcases ht with ht | ⟨-, ht⟩
  · obtain ⟨rfl, hne, hquote⟩ := quotedName?_eq_some_iff.1 ht
    exact ⟨_, .quoted hne hquote, by simp⟩
  · unfold bareName? at ht
    split at ht
    · exact absurd ht.symm (Option.some_ne_none _)
    · next hne =>
      obtain ⟨rfl, rfl⟩ := Prod.mk.inj (Option.some.inj ht)
      refine ⟨_, .bare hne fun c hc => ?_, List.takeWhile_append_dropWhile.symm⟩
      exact isNameChar_iff.1 (List.mem_takeWhile_imp hc)

/-- The scanners read the longest token. -/
theorem name?_eq_some_iff : name? t = some (name, rest) ↔ StartsWithLongest t name rest := by
  constructor
  · intro ht
    refine ⟨startsWith_of_name? ht, fun name' rest' ht' => ?_⟩
    obtain ⟨more, last, rfl, -, hlast⟩ := exists_name?_of_startsWith ht'
    obtain rfl : rest = last := (Prod.mk.inj (Option.some.inj (ht.symm.trans hlast))).2
    simp
  · rintro ⟨ht, hlongest⟩
    obtain ⟨more, last, rfl, -, hlast⟩ := exists_name?_of_startsWith ht
    have hle := hlongest _ _ (startsWith_of_name? hlast)
    obtain rfl : more = [] := by
      rw [List.length_append] at hle
      exact List.length_eq_zero_iff.1 (by omega)
    simpa using hlast

/-- A token that a dot follows is the longest one. -/
theorem name?_of_dot (ht : StartsWith t schema ('.' :: u)) : name? t = some (schema, '.' :: u) := by
  obtain ⟨more, last, hsplit, hmore, hname⟩ := exists_name?_of_startsWith ht
  cases more with
  | nil => rw [hname, hsplit, List.append_nil, List.nil_append]
  | cons c more =>
    -- More of the run would start with the dot.
    obtain ⟨rfl, -⟩ := List.cons.inj hsplit
    exact absurd (hmore '.' List.mem_cons_self) (by decide)

/-- A name after a dot is the rest of the line if it can be read as one. -/
theorem dottedName?_eq_some_iff :
    dottedName? rest = some table ↔ ∃ u rest', rest = '.' :: u ∧ name? u = some (table, rest') := by
  constructor
  · intro hdotted
    unfold dottedName? at hdotted
    split at hdotted
    · obtain ⟨⟨_, rest'⟩, hname, rfl⟩ := Option.map_eq_some_iff.1 hdotted
      exact ⟨_, rest', rfl, hname⟩
    · exact nomatch hdotted
  · rintro ⟨u, rest', rfl, hname⟩
    rw [dottedName?, hname]
    rfl

/-! ## Names -/

/-- The scanners find the names of a header. -/
theorem headerNames?_eq_some_iff : headerNames? t = some h ↔ IsNamed t h := by
  constructor
  · intro ht
    unfold headerNames? at ht
    split at ht
    · exact nomatch ht
    · next first rest hfirst =>
      split at ht
      · next second hsecond =>
        obtain ⟨u, rest', rfl, hname⟩ := dottedName?_eq_some_iff.1 hsecond
        rw [← Option.some.inj ht]
        exact .qualified (startsWith_of_name? hfirst) (name?_eq_some_iff.1 hname)
      · next hnone =>
        rw [← Option.some.inj ht]
        refine .plain (fun schema u table rest' hschema htable => ?_) (name?_eq_some_iff.1 hfirst)
        -- The first token would be followed by a dot and a second one.
        have hsame := hfirst.symm.trans (name?_of_dot hschema)
        obtain ⟨rfl, rfl⟩ := Prod.mk.inj (Option.some.inj hsame)
        obtain ⟨more, last, -, -, hname⟩ := exists_name?_of_startsWith htable
        exact nomatch hnone.symm.trans (dottedName?_eq_some_iff.2 ⟨u, last, rfl, hname⟩)
  · intro ht
    cases ht with
    | qualified hschema htable =>
      have hsecond := dottedName?_eq_some_iff.2 ⟨_, _, rfl, name?_eq_some_iff.2 htable⟩
      simp only [headerNames?, name?_of_dot hschema, hsecond]
    | @plain _ rest hsingle htable =>
      have hnone : dottedName? rest = none := by
        refine Option.eq_none_iff_forall_ne_some.2 fun second hsecond => ?_
        obtain ⟨u, rest', rfl, hname⟩ := dottedName?_eq_some_iff.1 hsecond
        exact hsingle _ _ _ _ htable.1 (startsWith_of_name? hname)
      simp only [headerNames?, name?_eq_some_iff.2 htable, hnone]

/-- They find some names exactly if the text starts with a token. -/
theorem isSome_headerNames?_iff :
    (headerNames? t).isSome ↔ ∃ name rest, StartsWith t name rest := by
  constructor
  · intro ht
    obtain ⟨h, ht⟩ := Option.isSome_iff_exists.1 ht
    cases headerNames?_eq_some_iff.1 ht with
    | qualified hschema _ => exact ⟨_, _, hschema⟩
    | plain _ htable => exact ⟨_, _, htable.1⟩
  · rintro ⟨name, rest, ht⟩
    obtain ⟨more, last, -, -, hname⟩ := exists_name?_of_startsWith ht
    simp only [headerNames?, hname]
    split <;> rfl

/-! ## The keyword -/

/-- A word is read in any case of its letters. -/
theorem afterWord?_eq_some_iff {word : List Char} :
    afterWord? word x = some rest ↔ ∃ w, x = w ++ rest ∧ w.map Char.toLower = word := by
  induction word generalizing x with
  | nil => simp [afterWord?, eq_comm]
  | cons w word ih =>
    cases x with
    | nil => simp [afterWord?]
    | cons c x =>
      rw [afterWord?]
      split
      · next hc =>
        -- The first letters agree, and the others are read.
        rw [ih]
        constructor
        · rintro ⟨v, rfl, rfl⟩
          exact ⟨c :: v, rfl, by rw [List.map_cons, hc]⟩
        · rintro ⟨v, hv, hword⟩
          obtain ⟨d, v, rfl⟩ := List.exists_cons_of_ne_nil
            (fun hnil => by simp [hnil] at hword : v ≠ [])
          exact ⟨v, (List.cons.inj hv).2, (List.cons.inj hword).2⟩
      · next hc =>
        -- The first letters differ, and so do the words.
        refine iff_of_false (Option.some_ne_none rest).symm ?_
        rintro ⟨v, hv, hword⟩
        cases v with
        | nil => exact absurd hword.symm (List.cons_ne_nil w word)
        | cons d v =>
          obtain ⟨rfl, -⟩ := List.cons.inj hv
          exact hc (List.cons.inj hword).1

/-- After the keyword the blanks are passed over. -/
theorem tableHeader?_of_isOpening (hstart : IsOpening start) (t : Text) :
    tableHeader? (start ++ t) = headerNames? (t.dropWhile Text.isAsciiBlank) := by
  obtain ⟨word, blanks, rfl, hword, hne, hblank⟩ := hstart
  obtain ⟨c, blanks, rfl⟩ := List.exists_cons_of_ne_nil hne
  have hafter : afterWord? ['t', 'a', 'b', 'l', 'e'] (word ++ c :: blanks ++ t) =
      some (c :: (blanks ++ t)) := afterWord?_eq_some_iff.2 ⟨word, by simp, hword⟩
  have hc := isAsciiBlank_iff.2 (hblank c List.mem_cons_self)
  have hblanks : ∀ d ∈ blanks, Text.isAsciiBlank d = true := fun d hd =>
    isAsciiBlank_iff.2 (hblank d (List.mem_cons_of_mem c hd))
  simp only [tableHeader?, hafter, hc, if_true, List.dropWhile_append_of_pos hblanks]

/-- A header starts with the keyword and blanks, and names follow. -/
theorem exists_isOpening (hx : tableHeader? x = some h) :
    ∃ start t, x = start ++ t ∧ IsOpening start ∧ headerNames? t = some h := by
  unfold tableHeader? at hx
  split at hx
  · next c t hafter =>
    obtain ⟨word, rfl, hword⟩ := afterWord?_eq_some_iff.1 hafter
    split at hx
    · next hc =>
      refine ⟨word ++ c :: t.takeWhile Text.isAsciiBlank, t.dropWhile Text.isAsciiBlank, ?_,
        ⟨word, _, rfl, hword, List.cons_ne_nil _ _, fun d hd => ?_⟩, hx⟩
      · simp
      · rcases List.mem_cons.1 hd with rfl | hd
        · exact isAsciiBlank_iff.1 hc
        · exact isAsciiBlank_iff.1 (List.mem_takeWhile_imp hd)
    · exact nomatch hx
  · exact nomatch hx

/-- No token starts with a blank. -/
theorem dropWhile_of_startsWith (ht : StartsWith t name rest) :
    t.dropWhile Text.isAsciiBlank = t := by
  obtain ⟨token, htoken, rfl⟩ := ht
  cases htoken with
  | quoted hne hquote => rfl
  | bare hne hword =>
    obtain ⟨c, name, rfl⟩ := List.exists_cons_of_ne_nil hne
    have hc := isAsciiBlank_of_isNameChar (isNameChar_iff.2 (hword c List.mem_cons_self))
    simp [hc]

/-- What names a table starts with a token. -/
theorem exists_startsWith_of_isNamed (ht : IsNamed t h) : ∃ name rest, StartsWith t name rest :=
  isSome_headerNames?_iff.1 (Option.isSome_iff_exists.2 ⟨h, headerNames?_eq_some_iff.2 ht⟩)

/-- A text is a table header if and only if it is the keyword, blanks, and a token, with anything
    behind it. It has the names that follow the keyword and the blanks, and none of them is
    empty. -/
theorem tableHeader?_eq_some_iff_isNamed (x : Text) :
    ((tableHeader? x).isSome ↔
      ∃ start t name rest, x = start ++ t ∧ IsOpening start ∧ StartsWith t name rest) ∧
    (∀ h, tableHeader? x = some h ↔ ∃ start t, x = start ++ t ∧ IsOpening start ∧ IsNamed t h) ∧
    ∀ h, tableHeader? x = some h → h.table ≠ [] ∧ h.schema ≠ some [] := by
  refine ⟨⟨fun hx => ?_, ?_⟩, fun h => ⟨fun hx => ?_, ?_⟩, fun h => ne_nil_of_tableHeader?⟩
  · obtain ⟨h, hx⟩ := Option.isSome_iff_exists.1 hx
    obtain ⟨start, t, rfl, hstart, ht⟩ := exists_isOpening hx
    obtain ⟨name, rest, ht⟩ := isSome_headerNames?_iff.1 (Option.isSome_iff_exists.2 ⟨h, ht⟩)
    exact ⟨start, t, name, rest, rfl, hstart, ht⟩
  · rintro ⟨start, t, name, rest, rfl, hstart, ht⟩
    rw [tableHeader?_of_isOpening hstart, dropWhile_of_startsWith ht]
    exact isSome_headerNames?_iff.2 ⟨name, rest, ht⟩
  · obtain ⟨start, t, rfl, hstart, ht⟩ := exists_isOpening hx
    exact ⟨start, t, rfl, hstart, headerNames?_eq_some_iff.1 ht⟩
  · rintro ⟨start, t, rfl, hstart, ht⟩
    obtain ⟨name, rest, hname⟩ := exists_startsWith_of_isNamed ht
    rw [tableHeader?_of_isOpening hstart, dropWhile_of_startsWith hname]
    exact headerNames?_eq_some_iff.2 ht

/-- A dot without a token behind it, here a quote that is not closed, makes no schema. -/
example : tableHeader? "TABLE\t a.\"b".toList = some ⟨none, "a".toList⟩ := by decide

end Line

end DbmlRestore
