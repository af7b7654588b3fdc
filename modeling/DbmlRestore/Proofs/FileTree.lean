import DbmlRestore.FileTree
import Mathlib.Algebra.Ring.Nat

/-!
# Files of a directory

A path that leads to a directory leads on to each file in it (`FileTree.LeadsTo.locate_child`), so
that the files of one directory are known from the entries at the addresses below its own. A file
that is written takes its address, and changes nothing else: no path leads elsewhere than before
(`FileTree.follow_insert`), as the steps of a path start at directories, and no directory is
replaced.
-/

namespace DbmlRestore

/-! ## Lengths -/

theorem byteCount_eq_sum (t : Text) : byteCount t = (t.map Char.utf8Size).sum := by
  suffices h : ∀ n, t.foldl (fun n c => n + c.utf8Size) n = n + (t.map Char.utf8Size).sum by
    rw [byteCount, h, Nat.zero_add]
  intro n
  induction t generalizing n with
  | nil => rfl
  | cons c t ih => rw [List.foldl_cons, ih, List.map_cons, List.sum_cons, Nat.add_assoc]

theorem byteCount_append (s t : Text) : byteCount (s ++ t) = byteCount s + byteCount t := by
  rw [byteCount_eq_sum, byteCount_eq_sum, byteCount_eq_sum, List.map_append, List.sum_append]

/-- A part takes no fewer bytes. -/
theorem byteCount_le_byteCount {s t : Text} (h : s <+: t) : byteCount s ≤ byteCount t := by
  obtain ⟨u, rfl⟩ := h
  rw [byteCount_append]
  exact Nat.le_add_right _ _

/-- A joined path stands at the start of the one with another part. -/
theorem Text.joined_prefix (sep : Text) (ps : List Text) (p : Text) :
    joined sep ps <+: joined sep (ps ++ [p]) := by
  induction ps with
  | nil => exact List.nil_prefix
  | cons q ps ih =>
    cases ps with
    | nil => exact ⟨sep ++ p, by simp [joined, List.intercalate]⟩
    | cons r ps =>
      have hcons : ∀ ps, joined sep (q :: r :: ps) = (q ++ sep) ++ joined sep (r :: ps) :=
        fun ps => by simp [joined, List.intercalate]
      rw [List.cons_append, List.cons_append, hcons, hcons, List.prefix_append_right_inj]
      exact ih

namespace Path

variable {p : Path} {name : Text}

/-- An absolute path is a part of that of a file in it. -/
theorem toText_prefix_child (hp : p.root ≠ .relative) (name : Text) :
    p.toText <+: (p.child name).toText := by
  have htext : ∀ parts, toText ⟨p.root, parts⟩ = p.root.text ++ Text.joined ['/'] parts := by
    intro parts
    rw [toText]
    split
    · next h _ => exact absurd h hp
    · rfl
  show toText ⟨p.root, p.parts⟩ <+: toText ⟨p.root, p.parts ++ [name]⟩
  rw [htext, htext, List.prefix_append_right_inj]
  exact Text.joined_prefix ['/'] p.parts name

/-- The name is no step up and holds no null character, and the path of the file of this name in
    the directory is not too long. -/
structure Fits (p : Path) (name : Text) : Prop where
  ne_up : name ≠ up
  null : name.contains '\x00' = false
  short : byteCount name ≤ nameLimit
  path : byteCount (p.child name).toText ≤ pathLimit

theorem hasNull_child (p : Path) (name : Text) :
    (p.child name).hasNull = (p.hasNull || name.contains '\x00') := by
  rw [hasNull, child, List.any_append, hasNull]
  simp

end Path

namespace FileTree

variable {t : FileTree} {l l' a b : Address} {x y : Entry} {ps : List Text}

/-! ## Entries -/

theorem entry?_of_ne_nil (t : FileTree) (hl : l ≠ []) :
    t.entry? l = (t.entries.find? fun e => e.1 = l).map (·.2) := by
  rw [ entry?, if_neg (by rwa [List.isEmpty_iff])]

/-- An entry that is put into a list is found under its address, and the others are as before. -/
theorem find?_insertEntry (es : List (Address × Entry)) :
    ((insertEntry l x es).find? fun e => e.1 = l').map (·.2) =
      if l = l' then some x else (es.find? fun e => e.1 = l').map (·.2) := by
  induction es with
  | nil => by_cases h : l = l' <;> simp [insertEntry, h]
  | cons e es ih =>
    rw [insertEntry]
    by_cases he : e.1 = l
    · rw [if_pos he]
      by_cases h : l = l'
      · simp [h]
      · simp [h, he]
    · rw [if_neg he, List.find?_cons, List.find?_cons]
      by_cases h : e.1 = l'
      · have hne : l ≠ l' := fun hl => he (h.trans hl.symm)
        simp [h, hne]
      · rw [decide_eq_false h]
        exact ih

/-- An entry takes its address, and leaves the others as they are. -/
theorem entry?_insert (t : FileTree) (hl : l ≠ []) (x : Entry) (l' : Address) :
    FileTree.entry? (t.insert l x) l' = if l = l' then some x else t.entry? l' := by
  by_cases hl' : l' = []
  · rw [hl', if_neg hl]
    rfl
  · rw [entry?_of_ne_nil _ hl', entry?_of_ne_nil t hl', insert, find?_insertEntry]

/-- What is put at an address twice is there as the second time. -/
theorem insert_insert (t : FileTree) (l : Address) (x y : Entry) :
    (t.insert l x).insert l y = t.insert l y := by
  suffices h : ∀ es, insertEntry l y (insertEntry l x es) = insertEntry l y es by
    rw [insert, insert, h, insert]
  intro es
  induction es with
  | nil => simp [insertEntry]
  | cons e es ih =>
    rw [insertEntry]
    by_cases he : e.1 = l
    · rw [if_pos he, insertEntry, insertEntry, if_pos rfl, if_pos he]
    · rw [if_neg he, insertEntry, insertEntry, if_neg he, if_neg he, ih]

/-! ## Files that are kept -/

/-- Every file is still there, with the content that it had. -/
def Keeps (t t' : FileTree) : Prop :=
  ∀ l content, t.entry? l = some (.file content) → t'.entry? l = some (.file content)

/-- The trees have the same files, with the same contents. -/
def SameFiles (t t' : FileTree) : Prop :=
  ∀ l content, t.entry? l = some (.file content) ↔ t'.entry? l = some (.file content)

theorem Keeps.refl (t : FileTree) : t.Keeps t := fun _ _ => id

theorem SameFiles.refl (t : FileTree) : t.SameFiles t := fun _ _ => Iff.rfl

theorem SameFiles.trans {t t' t'' : FileTree} (h : t.SameFiles t') (h' : t'.SameFiles t'') :
    t.SameFiles t'' :=
  fun l content => (h l content).trans (h' l content)

instance : Std.Refl SameFiles := ⟨.refl⟩

instance : IsTrans FileTree SameFiles := ⟨fun _ _ _ => .trans⟩

/-- A tree with the same files keeps the files. -/
theorem SameFiles.keeps {t t' : FileTree} (h : t.SameFiles t') : t.Keeps t' :=
  fun l content => (h l content).1

/-- Whether files are kept is a matter of finitely many entries. -/
theorem keeps_iff_forall_entries {t t' : FileTree} : t.Keeps t' ↔
    ∀ e ∈ t.entries, ∀ x ∈ t.entry? e.1, x = .directory ∨ t'.entry? e.1 = some x := by
  constructor
  · intro h e _ x hx
    cases x with
    | directory => exact .inl rfl
    | file content => exact .inr (h e.1 content hx)
  · intro h l content hfile
    have hne : l ≠ [] := by
      rintro rfl
      cases hfile
    have hfind := hfile
    rw [entry?_of_ne_nil t hne, Option.map_eq_some_iff] at hfind
    obtain ⟨e, he, -⟩ := hfind
    have hl := List.find?_some he
    obtain rfl : e.1 = l := of_decide_eq_true hl
    exact (h e (List.mem_of_find?_eq_some he) _ hfile).resolve_left (by rintro ⟨⟩)

instance (t t' : FileTree) : Decidable (t.Keeps t') :=
  decidable_of_iff _ keeps_iff_forall_entries.symm

/-- A new directory is no file, and takes the place of none. -/
theorem sameFiles_insert_directory (hl : t.entry? l = none) :
    t.SameFiles (t.insert l .directory) := by
  have hne : l ≠ [] := by
    rintro rfl
    cases hl
  intro l' content
  rw [entry?_insert t hne]
  split
  · next heq =>
    rw [← heq, hl]
    exact iff_of_false (by rintro ⟨⟩) (by rintro ⟨⟩)
  · rfl

/-- New directories leave the files alone. -/
theorem sameFiles_of_makeDirectory {t t' : FileTree} {p : Path}
    (h : t.makeDirectory p = .ok t') : t.SameFiles t' := by
  rw [makeDirectory] at h
  split at h
  · cases h
  · split at h
    · cases h
    · next hnone =>
      obtain rfl := Except.ok.inj h
      exact sameFiles_insert_directory hnone

/-- The other files are kept when one is written. -/
theorem keeps_insert_iff (hl : t.entry? l ≠ some .directory) {content : Charset.Bytes} :
    t.Keeps (t.insert l (.file content)) ↔
      ∀ old, t.entry? l = some (.file old) → content = old := by
  have hne : l ≠ [] := fun hl' => hl (hl' ▸ rfl)
  constructor
  · intro h old hold
    have hkept := h l old hold
    rw [entry?_insert t hne, if_pos rfl] at hkept
    cases hkept
    rfl
  · intro h l' old hold
    rw [entry?_insert t hne]
    split
    · next heq => rw [h old (heq ▸ hold)]
    · exact hold

/-! ## Paths -/

/-- Steps can be taken in two parts. -/
theorem follow_append (t : FileTree) (a : Address) (ps qs : List Text) :
    t.follow a (ps ++ qs) = (t.follow a ps).bind (t.follow · qs) := by
  induction ps generalizing a with
  | nil => rfl
  | cons p ps ih =>
    rw [List.cons_append, follow, follow]
    split
    · rfl
    · rfl
    · split
      · rfl
      · split
        · exact ih _
        · exact ih _

/-- No path leads elsewhere because of what is put where no directory stands. -/
theorem follow_insert (h : t.follow a ps = .ok b) (hl : t.entry? l ≠ some .directory) :
    (t.insert l x).follow a ps = .ok b := by
  have hne : l ≠ [] := fun hl' => hl (hl' ▸ rfl)
  induction ps generalizing a with
  | nil => exact h
  | cons p ps ih =>
    rw [follow] at h
    split at h
    · cases h
    · cases h
    · next ha =>
      -- No directory is replaced, so that the step can still be taken.
      have ha' : FileTree.entry? (t.insert l x) a = some .directory := by
        have hla : l ≠ a := fun hla => hl (hla ▸ ha)
        rw [entry?_insert t hne, if_neg hla, ha]
      rw [follow, ha']
      split at h
      · cases h
      · next hshort =>
        show (if _ then _ else _) = _
        rw [if_neg hshort]
        split at h
        · next hup => rw [if_pos hup, ih h]
        · next hup => rw [if_neg hup, ih h]

/-- A path leads to an address if it has no null character, is short enough, and its steps lead
    there. -/
theorem locate_eq_ok_iff (t : FileTree) (p : Path) (a : Address) :
    t.locate p = .ok a ↔
      p.hasNull = false ∧ byteCount p.toText ≤ pathLimit ∧ t.follow [] p.parts = .ok a := by
  rw [locate]
  split
  · next hnull => exact iff_of_false nofun fun h => Bool.noConfusion (h.1.symm.trans hnull)
  · next hnull =>
    split
    · next hlong => exact iff_of_false nofun fun h => Nat.not_lt.2 h.2.1 hlong
    · next hlong =>
      exact ⟨fun h => ⟨Bool.eq_false_iff.2 hnull, Nat.not_lt.1 hlong, h⟩, fun h => h.2.2⟩

/-- Putting an entry where no directory stands keeps each path that led somewhere. -/
theorem locate_insert {p : Path} (h : t.locate p = .ok a) (hl : t.entry? l ≠ some .directory) :
    (t.insert l x).locate p = .ok a := by
  obtain ⟨hnull, hlong, hfollow⟩ := (t.locate_eq_ok_iff p a).1 h
  exact (locate_eq_ok_iff _ p a).2 ⟨hnull, hlong, follow_insert hfollow hl⟩

/-- A file can be written where no directory stands. -/
theorem write_eq_ok_iff {p : Path} {content : Charset.Bytes} {t' : FileTree} :
    t.write p content = .ok t' ↔ ∃ l, t.locate p = .ok l ∧ t.entry? l ≠ some .directory ∧
      t.insert l (.file content) = t' := by
  rw [write]
  split
  · next hl => exact iff_of_false (by rintro ⟨⟩) (by rintro ⟨l, hl', -⟩; cases hl.symm.trans hl')
  · next l hl =>
    have hunique : (∃ l', t.locate p = .ok l' ∧ t.entry? l' ≠ some .directory ∧
        t.insert l' (.file content) = t') ↔
          t.entry? l ≠ some .directory ∧ t.insert l (.file content) = t' :=
      ⟨fun ⟨l', hl', h⟩ => Except.ok.inj (hl.symm.trans hl') ▸ h, fun h => ⟨l, hl, h⟩⟩
    rw [hunique]
    split
    · next hdir => exact iff_of_false (by rintro ⟨⟩) fun h => h.1 hdir
    · next hfree => rw [Except.ok.injEq, and_iff_right hfree]

/-- A file that was written is written again. -/
theorem write_insert {p : Path} (hl : t.locate p = .ok l) (hfree : t.entry? l ≠ some .directory)
    (old content : Charset.Bytes) :
    (t.insert l (.file old)).write p content = .ok (t.insert l (.file content)) := by
  have hne : l ≠ [] := fun hnil => hfree (hnil ▸ rfl)
  refine write_eq_ok_iff.2 ⟨l, locate_insert hl hfree, ?_, insert_insert t l _ _⟩
  rw [entry?_insert t hne, if_pos rfl]
  rintro ⟨⟩

/-- A path whose content can be read leads to a file. -/
theorem read_eq_ok_iff {p : Path} {content : Charset.Bytes} : t.read p = .ok content ↔
    ∃ l, t.locate p = .ok l ∧ t.entry? l = some (.file content) := by
  rw [read]
  split
  · next hl => exact iff_of_false (by rintro ⟨⟩) (by rintro ⟨l, hl', -⟩; cases hl.symm.trans hl')
  · next l hl =>
    have hunique : (∃ l', t.locate p = .ok l' ∧ t.entry? l' = some (.file content)) ↔
        t.entry? l = some (.file content) :=
      ⟨fun ⟨l', hl', hentry⟩ => Except.ok.inj (hl.symm.trans hl') ▸ hentry, fun h => ⟨l, hl, h⟩⟩
    rw [hunique]
    split
    · next hnone => rw [hnone]; exact iff_of_false (by rintro ⟨⟩) (by rintro ⟨⟩)
    · next hdir => rw [hdir]; exact iff_of_false (by rintro ⟨⟩) (by rintro ⟨⟩)
    · next hfile => rw [hfile, Except.ok.injEq, Option.some.injEq, Entry.file.injEq]

/-- What can be read is a file. -/
theorem at?_of_read {p : Path} {content : Charset.Bytes} (h : t.read p = .ok content) :
    t.at? p = .ok (some (.file content)) := by
  obtain ⟨l, hl, hfile⟩ := read_eq_ok_iff.1 h
  rw [at?, hl]
  exact congrArg _ hfile

/-- The path leads to the directory at the address. -/
structure LeadsTo (t : FileTree) (p : Path) (a : Address) : Prop where
  locate : t.locate p = .ok a
  directory : t.entry? a = some .directory

/-! ## The files of a directory -/

section

variable {p : Path} {name : Text} {content : Charset.Bytes}

theorem concat_ne_nil (a : Address) (name : Text) : a ++ [name] ≠ [] :=
  List.append_ne_nil_of_right_ne_nil _ (List.cons_ne_nil _ _)

/-- A step down starts at a directory. -/
theorem follow_singleton (hup : name ≠ Path.up) : t.follow a [name] = .ok l ↔
    t.entry? a = some .directory ∧ byteCount name ≤ nameLimit ∧ a ++ [name] = l := by
  rw [follow]
  split
  · next ha => exact iff_of_false nofun fun h => nomatch ha.symm.trans h.1
  · next ha => exact iff_of_false nofun fun h => nomatch ha.symm.trans h.1
  · next ha =>
    rw [if_neg hup]
    split
    · next hlong => exact iff_of_false nofun fun h => Nat.not_lt.2 h.2.1 hlong
    · next hlong =>
      rw [follow, Except.ok.injEq]
      exact ⟨fun hl => ⟨ha, Nat.not_lt.1 hlong, hl⟩, fun h => h.2.2⟩

namespace LeadsTo

variable (h : t.LeadsTo p a)
include h

/-- A name below a directory that a path leads to is a path as well, if it is short enough. -/
theorem locate_child (hfits : p.Fits name) : t.locate (p.child name) = .ok (a ++ [name]) := by
  obtain ⟨hnull, -, hfollow⟩ := (t.locate_eq_ok_iff p a).1 h.locate
  refine (t.locate_eq_ok_iff _ _).2 ⟨?_, hfits.path, ?_⟩
  · rw [Path.hasNull_child, hnull, hfits.null]
    rfl
  · rw [Path.child, follow_append, hfollow]
    exact (follow_singleton hfits.ne_up).2 ⟨h.directory, hfits.short, rfl⟩

/-- Below a directory, a name leads to what stands there. -/
theorem at?_child (hfits : p.Fits name) :
    t.at? (p.child name) = .ok (t.entry? (a ++ [name])) := by
  rw [at?, h.locate_child hfits]

/-- A file below a directory is read under its name, if the path is short enough. -/
theorem read_child (hfits : p.Fits name) (hfile : t.entry? (a ++ [name]) = some (.file content)) :
    t.read (p.child name) = .ok content := by
  rw [read, h.locate_child hfits]
  dsimp only
  rw [hfile]

/-- The directory stays where it is. -/
theorem insert (hfree : t.entry? (a ++ [name]) ≠ some .directory) :
    (t.insert (a ++ [name]) (.file content)).LeadsTo p a := by
  have hne : a ++ [name] ≠ a := fun heq => by
    rw [List.append_right_eq_self] at heq
    exact List.cons_ne_nil _ _ heq
  refine ⟨locate_insert h.locate hfree, ?_⟩
  rw [entry?_insert t (concat_ne_nil a name), if_neg hne, h.directory]

end LeadsTo

/-- A file that can be read stands in a directory. -/
theorem exists_leadsTo (hp : p.root ≠ .relative) (hup : name ≠ Path.up)
    (hread : t.read (p.child name) = .ok content) :
    ∃ a, t.LeadsTo p a ∧ p.Fits name ∧ t.entry? (a ++ [name]) = some (.file content) := by
  obtain ⟨l, hl, hfile⟩ := read_eq_ok_iff.1 hread
  obtain ⟨hnull, hlong, hfollow⟩ := (t.locate_eq_ok_iff _ _).1 hl
  rw [Path.hasNull_child, Bool.or_eq_false_iff] at hnull
  rw [Path.child, follow_append] at hfollow
  cases ha : t.follow [] p.parts with
  | error e =>
    rw [ha] at hfollow
    cases hfollow
  | ok a =>
    rw [ha] at hfollow
    obtain ⟨hdir, hshort, rfl⟩ := (follow_singleton hup).1 hfollow
    have hpath : byteCount p.toText ≤ pathLimit :=
      Nat.le_trans (byteCount_le_byteCount (Path.toText_prefix_child hp name)) hlong
    exact ⟨a, ⟨(t.locate_eq_ok_iff p a).2 ⟨hnull.1, hpath, ha⟩, hdir⟩,
      ⟨hup, hnull.2, hshort, hlong⟩, hfile⟩

/-- If a file is read below a directory, it stands there under its name, and the path is short
    enough. -/
theorem LeadsTo.of_read (h : t.LeadsTo p a) (hp : p.root ≠ .relative) (hup : name ≠ Path.up)
    (hread : t.read (p.child name) = .ok content) :
    p.Fits name ∧ t.entry? (a ++ [name]) = some (.file content) := by
  obtain ⟨b, hb, hfits, hfile⟩ := exists_leadsTo hp hup hread
  obtain rfl : b = a := Except.ok.inj (hb.locate.symm.trans h.locate)
  exact ⟨hfits, hfile⟩

/-- Where nothing can be found in a directory, nothing stands. -/
theorem LeadsTo.of_at?_eq_none (h : t.LeadsTo p a) (hup : name ≠ Path.up)
    (hnull : name.contains '\x00' = false) (hshort : byteCount name ≤ nameLimit)
    (hat : t.at? (p.child name) = .ok none) :
    p.Fits name ∧ t.entry? (a ++ [name]) = none := by
  obtain ⟨hnull', -, -⟩ := (t.locate_eq_ok_iff p a).1 h.locate
  have hpath : byteCount (p.child name).toText ≤ pathLimit := Nat.not_lt.1 fun hlong => by
    rw [at?, FileTree.locate, Path.hasNull_child, hnull', hnull, Bool.or_false,
      if_neg Bool.false_ne_true, if_pos hlong] at hat
    cases hat
  have hfits : p.Fits name := ⟨hup, hnull, hshort, hpath⟩
  rw [h.at?_child hfits] at hat
  exact ⟨hfits, Except.ok.inj hat⟩

end

end FileTree

end DbmlRestore
