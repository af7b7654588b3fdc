import DbmlRestore.Charset
import DbmlRestore.Proofs.Document.Characters
import DbmlRestore.Proofs.Json.Ascii
import DbmlRestore.Proofs.Text.Wording

/-!
# Characters of charsets

A charset of single bytes holds the characters of its table, and the others hold all characters
(`Charset.Holds`). A text over the characters of a charset can be encoded in it
(`Charset.exists_encode_eq_ok`). A text that was decoded is over them (`Charset.over_of_decode`), and
so is a text in ASCII (`Charset.over_of_ascii`). What is restored from texts in a charset can thus be
encoded in it again, as every charset is an alphabet with the characters that restoring adds
(`Charset.isAlphabet_holds`).
-/

namespace DbmlRestore

open Text (Over IsAlphabet)

namespace Charset

namespace SingleByte

variable {p : Page} {pos : Nat} {bytes : Bytes} {t : Text}

/-- The charsets of single bytes. -/
def pages : List Page := [ascii, latin1, windows1252]

theorem toNat_ofNat_of_lt {n : Nat} (hn : n < 256) : (Char.ofNat n).toNat = n :=
  Wording.toNat_ofNat (.inl (Nat.lt_trans hn (by decide)))

section Below

variable {codec : String} {bound : Nat} {a : Char}

theorem Page.isSome_byte?_below (ha : a.toNat < bound) :
    ((Page.below codec bound).byte? a).isSome := by
  have hbyte : (Page.below codec bound).byte? a = some a.toNat.toUInt8 := if_pos ha
  rw [hbyte]
  rfl

theorem Page.isSome_byte?_of_char?_below {b : UInt8}
    (h : (Page.below codec bound).char? b = some a) :
    ((Page.below codec bound).byte? a).isSome := by
  obtain ⟨hb, heq⟩ := Option.ite_none_right_eq_some.1 h
  refine isSome_byte?_below ?_
  rwa [← Option.some.inj heq, toNat_ofNat_of_lt b.toNat_lt]

end Below

section Windows

variable {a : Char}

theorem isSome_windows1252_byte? (ha : a.toNat < 0x80 ∨ 0xA0 ≤ a.toNat ∧ a.toNat < 0x100) :
    (windows1252.byte? a).isSome := by
  have hbyte : windows1252.byte? a = some a.toNat.toUInt8 := if_pos ha
  rw [hbyte]
  rfl

/-- Each character in the table of Windows-1252 has its byte. -/
theorem isSome_windows1252_byte?_of_char? {b : UInt8} (h : windows1252.char? b = some a) :
    (windows1252.byte? a).isSome := by
  -- A zero in the table is no character.
  have hextras : ∀ n ∈ windowsExtras, n ≠ 0 → (windows1252.byte? (Char.ofNat n)).isSome := by
    decide
  delta windows1252 at h
  dsimp only at h
  split at h
  · split at h
    · next n hn =>
      obtain rfl := Option.some.inj h
      exact hextras _ (List.mem_of_getElem? hn) n.succ_ne_zero
    · cases h
  · next hb =>
    obtain rfl := Option.some.inj h
    have hlt : b.toNat < 0x100 := b.toNat_lt
    refine isSome_windows1252_byte? ?_
    rw [toNat_ofNat_of_lt hlt]
    omega

end Windows

/-- A character that a byte stands for has a byte, -/
theorem isSome_byte?_of_char? (hp : p ∈ pages) {b : UInt8} {a : Char} (h : p.char? b = some a) :
    (p.byte? a).isSome := by
  simp only [pages, List.mem_cons, List.not_mem_nil, or_false] at hp
  rcases hp with rfl | rfl | rfl
  · exact Page.isSome_byte?_of_char?_below h
  · exact Page.isSome_byte?_of_char?_below h
  · exact isSome_windows1252_byte?_of_char? h

/-- and so has one in ASCII. -/
theorem isSome_byte?_of_ascii (hp : p ∈ pages) {a : Char} (ha : a.toNat < 128) :
    (p.byte? a).isSome := by
  simp only [pages, List.mem_cons, List.not_mem_nil, or_false] at hp
  rcases hp with rfl | rfl | rfl
  · exact Page.isSome_byte?_below ha
  · exact Page.isSome_byte?_below (Nat.lt_trans ha (by decide))
  · exact isSome_windows1252_byte? (.inl ha)

/-- A text whose characters have bytes can be encoded, from any position on. -/
theorem exists_encodeFrom_eq_ok (h : ∀ a ∈ t, (p.byte? a).isSome) :
    ∃ bytes, encodeFrom p pos t = .ok bytes := by
  induction t generalizing pos with
  | nil => exact ⟨[], rfl⟩
  | cons a t ih =>
    obtain ⟨ha, ht⟩ := List.forall_mem_cons.1 h
    obtain ⟨b, hb⟩ := Option.isSome_iff_exists.1 ha
    obtain ⟨bytes, hbytes⟩ : ∃ bytes, encodeFrom p (pos + 1) t = .ok bytes := ih ht
    refine ⟨b :: bytes, ?_⟩
    rw [encodeFrom, hb]
    dsimp only
    rw [hbytes]
    rfl

/-- What was decoded has bytes, as each of its characters came from one. -/
theorem isSome_byte?_of_decodeFrom (hp : p ∈ pages) (h : decodeFrom p pos bytes = .ok t) :
    ∀ a ∈ t, (p.byte? a).isSome := by
  induction bytes generalizing pos t with
  | nil =>
    obtain rfl := Except.ok.inj h
    rintro _ ⟨⟩
  | cons b bytes ih =>
    rw [decodeFrom] at h
    split at h
    · next a ha =>
      obtain ⟨rest, hrest, rfl⟩ := map_eq_ok_iff.1 h
      exact List.forall_mem_cons.2 ⟨isSome_byte?_of_char? hp ha, ih hrest⟩
    · cases h

end SingleByte

/-- The table of a charset of single bytes. -/
def page? : Charset → Option SingleByte.Page
  | .ascii => some SingleByte.ascii
  | .latin1 => some SingleByte.latin1
  | .windows1252 => some SingleByte.windows1252
  | _ => none

/-- The character is in the charset. -/
def Holds (c : Charset) (a : Char) : Prop := ∀ p ∈ c.page?, (p.byte? a).isSome

variable {c : Charset} {p : SingleByte.Page} {t : Text} {bytes : Bytes}

theorem mem_pages_of_page? (hp : c.page? = some p) : p ∈ SingleByte.pages := by
  cases c <;> cases hp <;> simp [SingleByte.pages]

/-- A charset with a page is encoded by this page. -/
theorem encode_of_page? (hp : c.page? = some p) (t : Text) : c.encode t = SingleByte.encode p t := by
  cases c <;> cases hp <;> rfl

theorem decode_of_page? (hp : c.page? = some p) (bytes : Bytes) :
    c.decode bytes = SingleByte.decode p bytes := by
  cases c <;> cases hp <;> rfl

/-- A charset without a page can encode each text. -/
theorem exists_encode_eq_ok_of_none (hp : c.page? = none) (t : Text) :
    ∃ bytes, c.encode t = .ok bytes := by
  cases c <;> first | exact ⟨_, rfl⟩ | cases hp

/-- A text over the characters of a charset can be encoded in it. -/
theorem exists_encode_eq_ok (h : Over c.Holds t) : ∃ bytes, c.encode t = .ok bytes := by
  cases hp : c.page? with
  | none => exact exists_encode_eq_ok_of_none hp t
  | some p =>
    rw [encode_of_page? hp]
    exact SingleByte.exists_encodeFrom_eq_ok fun a ha => h a ha p hp

/-- A text that was decoded is over the characters of the charset. -/
theorem over_of_decode (h : c.decode bytes = .ok t) : Over c.Holds t := by
  intro a ha p hp
  rw [decode_of_page? hp] at h
  exact SingleByte.isSome_byte?_of_decodeFrom (mem_pages_of_page? hp) h a ha

/-- Each charset has the characters of ASCII. -/
theorem over_of_ascii (h : Json.Ascii t) : Over c.Holds t :=
  fun a ha _ hp => SingleByte.isSome_byte?_of_ascii (mem_pages_of_page? hp) (h a ha)

/-- The characters of a charset are an alphabet: the space and the line ends are among them. -/
theorem isAlphabet_holds (c : Charset) : IsAlphabet c.Holds := by
  have hascii : ∀ a, a.toNat < 128 → c.Holds a := fun _ ha _ hp =>
    SingleByte.isSome_byte?_of_ascii (mem_pages_of_page? hp) ha
  exact ⟨hascii _ (by decide), hascii _ (by decide), hascii _ (by decide)⟩

end Charset

end DbmlRestore
