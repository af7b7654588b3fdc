import DbmlRestore.Proofs.Json.Roundtrip

/-!
# ASCII

A text is ASCII if the numbers of its characters are below 128 (`Json.Ascii`). Every
character of a string that is not ASCII is escaped, so that plain values are written in
ASCII in every layout (`Json.Plain.ascii_render`).
-/

namespace DbmlRestore

namespace Json

/-- The characters of a text are ASCII. -/
def Ascii (t : Text) : Prop := ∀ c ∈ t, c.toNat < 128

instance (t : Text) : Decidable (Ascii t) :=
  List.decidableBAll (fun c : Char => c.toNat < 128) t

theorem ascii_append {s t : Text} : Ascii (s ++ t) ↔ Ascii s ∧ Ascii t :=
  List.forall_mem_append

theorem ascii_cons {c : Char} {t : Text} : Ascii (c :: t) ↔ c.toNat < 128 ∧ Ascii t :=
  List.forall_mem_cons

theorem ascii_flatMap {α : Type} {f : α → Text} {xs : List α} (h : ∀ x ∈ xs, Ascii (f x)) :
    Ascii (xs.flatMap f) := by
  intro c hc
  obtain ⟨x, hx, hc⟩ := List.mem_flatMap.1 hc
  exact h x hx c hc

theorem ascii_escapeUnit (n : Nat) : Ascii (escapeUnit n) := by
  have hhex : ∀ k, (hexChar (k % 16)).toNat < 128 := by
    intro k
    have h : ∀ d < 16, (hexChar d).toNat < 128 := by decide
    exact h _ (Nat.mod_lt k (by decide))
  simp only [escapeUnit, ascii_cons, hhex, true_and]
  decide

/-- Whatever is not ASCII is escaped. -/
theorem ascii_escapeChar (c : Char) : Ascii (escapeChar c) := by
  unfold escapeChar
  repeat' split
  all_goals first
    | decide
    | exact ascii_escapeUnit _
    | exact ascii_append.2 ⟨ascii_escapeUnit _, ascii_escapeUnit _⟩
    | exact ascii_cons.2 ⟨by omega, fun _ h => nomatch h⟩

/-- A quoted text is ASCII, as other characters are escaped. -/
theorem ascii_quote (t : Text) : Ascii (quote (.text t)) :=
  ascii_cons.2 ⟨by decide, ascii_append.2 ⟨ascii_flatMap fun c _ => ascii_escapeChar c, by decide⟩⟩

theorem ascii_lineBreak (i : Indent) (level : Nat) : Ascii (i.lineBreak level) := by
  cases i with
  | oneLine => exact fun _ h => nomatch h
  | spaces n =>
    refine ascii_cons.2 ⟨by decide, fun c hc => ?_⟩
    rw [List.eq_of_mem_replicate hc]
    decide

theorem ascii_separator (i : Indent) (level : Nat) : Ascii (i.separator level) := by
  cases i with
  | oneLine => exact (by decide : Ascii [',', ' '])
  | spaces n => exact ascii_cons.2 ⟨by decide, ascii_lineBreak (.spaces n) level⟩

theorem ascii_ofInt (n : Int) : Ascii (Text.ofInt n) := by
  have hnat : ∀ k, Ascii (Text.ofNat k) := by
    intro k c hc
    have := isDigit_of_mem_ofNat hc
    rw [isDigit, Bool.and_eq_true, decide_eq_true_eq, decide_eq_true_eq] at this
    exact Nat.lt_of_le_of_lt this.2 (by decide)
  cases n with
  | ofNat k => exact hnat k
  | negSucc k => exact ascii_cons.2 ⟨by decide, hnat _⟩

/-- A plain value is written in ASCII. -/
theorem Plain.ascii_renderAt {v : Json} (h : Plain v) (i : Indent) : ∀ level : Nat,
    Ascii (renderAt i level v) := by
  induction h with
  | null => exact fun _ => (by decide : Ascii "null".toList)
  | bool b =>
    cases b with
    | false => exact fun _ => (by decide : Ascii "false".toList)
    | true => exact fun _ => (by decide : Ascii "true".toList)
  | @int n _ => exact fun _ => ascii_ofInt n
  | text t => exact fun _ => ascii_quote t
  | @array vs _ ih =>
    intro level
    cases vs with
    | nil => exact (by decide : Ascii ['[', ']'])
    | cons v vs =>
      have hitems : Ascii (renderItems i (level + 1) vs) := by
        rw [renderItems_eq_flatMap]
        exact ascii_flatMap fun w hw =>
          ascii_append.2 ⟨ascii_separator i _, ih w (List.mem_cons_of_mem v hw) _⟩
      simp only [renderAt_array, ascii_append, ascii_cons, ascii_lineBreak, hitems,
        ih v List.mem_cons_self]
      decide
  | @object ms hkeys _ _ ih =>
    intro level
    -- The key of a member is a text, so that it is quoted and escaped.
    have hmember : ∀ m ∈ ms, Ascii (renderMember i (level + 1) m) := by
      rintro ⟨k, v⟩ hm
      obtain ⟨k, rfl⟩ := hkeys (k, v) hm
      refine ascii_append.2 ⟨ascii_quote k, ?_⟩
      exact ascii_cons.2 ⟨by decide, ascii_cons.2 ⟨by decide, ih _ hm _⟩⟩
    cases ms with
    | nil => exact (by decide : Ascii ['\x7b', '\x7d'])
    | cons m ms =>
      have hmembers : Ascii (renderMembers i (level + 1) ms) := by
        rw [renderMembers_eq_flatMap]
        exact ascii_flatMap fun x hx =>
          ascii_append.2 ⟨ascii_separator i _, hmember x (List.mem_cons_of_mem m hx)⟩
      simp only [renderAt_object, ascii_append, ascii_cons, ascii_lineBreak, hmembers,
        hmember m List.mem_cons_self]
      decide

/-- What is rendered of plain values is ASCII. -/
theorem Plain.ascii_render {v : Json} (h : Plain v) (i : Indent) : Ascii (render i v) :=
  h.ascii_renderAt i 0

end Json

end DbmlRestore
