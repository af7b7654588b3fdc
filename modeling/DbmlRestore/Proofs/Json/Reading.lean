import DbmlRestore.Proofs.Json.Numbers
import DbmlRestore.Proofs.Result
import Mathlib.Data.List.TakeWhile

/-!
# Lists and values, part by part

How a value is read is known from its first character: a quote, a bracket and a brace start strings,
arrays and objects, and anything else a word or a number (`Json.first_cases`). The items of an array
and the members of an object are lists of one kind (`Json.listOf`), so that what is said of lists
has one proof for both. Between items there may be blanks (`Json.exists_blanks`).
-/

namespace DbmlRestore

namespace Json

/-! ## First characters -/

/-- The first character of a text, if it has one, is as `P` says. -/
def FirstIs (P : Char → Prop) (t : Text) : Prop := ∀ c ∈ t.head?, P c

section FirstIs

variable {P Q : Char → Prop} {s t : Text} {c : Char}

theorem firstIs_nil : FirstIs P [] := fun _ h => nomatch h

theorem firstIs_cons : FirstIs P (c :: t) ↔ P c :=
  ⟨fun h => h c rfl, fun h _ hd => Option.some.inj hd ▸ h⟩

theorem FirstIs.imp (h : FirstIs P t) (hPQ : ∀ c, P c → Q c) : FirstIs Q t :=
  fun c hc => hPQ c (h c hc)

/-- The first character is that of a front which is not empty. -/
theorem FirstIs.append_left (h : FirstIs P s) (hs : s ≠ []) (t : Text) : FirstIs P (s ++ t) := by
  cases s with
  | nil => exact absurd rfl hs
  | cons c s => exact h

theorem FirstIs.of_append (h : FirstIs P (s ++ t)) : FirstIs P s := by
  cases s with
  | nil => exact firstIs_nil
  | cons c s => exact h

/-- It is that of the front, or of what follows an empty one. -/
theorem FirstIs.append (hs : FirstIs P s) (ht : FirstIs P t) : FirstIs P (s ++ t) := by
  cases s with
  | nil => exact ht
  | cons c s => exact hs

end FirstIs

/-- The text starts with no blank. -/
abbrev Firm : Text → Prop := FirstIs (isSpace · = false)

/-- The text is empty or starts as a number does. -/
abbrev Numeric : Text → Prop := FirstIs fun c => isDigit c = true ∨ c = '-'

theorem Numeric.imp {P : Char → Prop} {t : Text} (h : Numeric t)
    (hdigit : ∀ c, isDigit c = true → P c) (hsign : P '-') : FirstIs P t :=
  FirstIs.imp h fun c hc => hc.elim (hdigit c) fun heq => heq ▸ hsign

/-! ## Blanks -/

/-- Where no space stands, nothing is skipped. -/
theorem skipSpace_of_not_isSpace {c : Char} {t : Text} (h : isSpace c = false) :
    skipSpace (c :: t) = c :: t :=
  List.dropWhile_cons_of_neg (h ▸ Bool.false_ne_true)

theorem skipSpace_of_firm {t : Text} (h : Firm t) : skipSpace t = t := by
  cases t with
  | nil => rfl
  | cons c t => exact skipSpace_of_not_isSpace (firstIs_cons.1 h)

theorem Numeric.firm {t : Text} (h : Numeric t) : Firm t :=
  h.imp (fun _ => isSpace_of_isDigit) rfl

theorem firm_skipSpace (t : Text) : Firm (skipSpace t) := fun c hc => by
  have := List.head?_dropWhile_not isSpace t
  rw [show t.dropWhile isSpace = skipSpace t from rfl, show (skipSpace t).head? = some c from hc]
    at this
  exact this

/-- A text has blanks in front, which are passed over whatever follows and do not go on with a
    number. -/
theorem exists_blanks (t : Text) : ∃ b, t = b ++ skipSpace t ∧
    (∀ u, Firm u → skipSpace (b ++ u) = u) ∧ ∀ u, Stops u → Stops (b ++ u) := by
  have hb : ∀ c ∈ t.takeWhile isSpace, isSpace c = true := fun c hc => List.mem_takeWhile_imp hc
  refine ⟨t.takeWhile isSpace, List.takeWhile_append_dropWhile.symm, fun u hu => ?_, fun u hu => ?_⟩
  · rw [skipSpace, List.dropWhile_append_of_pos hb]
    exact skipSpace_of_firm hu
  · refine FirstIs.append (fun c hc => ?_) hu
    have hspace := hb c (List.mem_of_mem_head? hc)
    simp only [isSpace, Bool.or_eq_true, beq_iff_eq] at hspace
    rcases hspace with ((rfl | rfl) | rfl) | rfl <;> decide

/-! ## Lists -/

/-- A member of an object, whose value is read by `item`. -/
def pair (item : Reader Json) : Reader (Wording × Json) := fun t => do
  let (k, t) ← memberKey t
  let (v, t) ← item t
  return ((k, v), t)

/-- What is read by `item`, with commas between, up to the character `close`. If there is no fuel,
    what is missing is told by the fault. -/
def listOf {α : Type} (close : Char) (missing : Fault) (item : Reader α) :
    (fuel : Nat) → Reader (List α)
  | 0, t => .error (.fault missing t)
  | fuel + 1, t => do
    let (a, t) ← item t
    match skipSpace t with
    | [] => .error (.fault .comma [])
    | c :: t =>
      if c = close then return ([a], t)
      else if c = ',' then do
        let (as, t) ← listOf close missing item fuel (skipSpace t)
        return (a :: as, t)
      else .error (.fault .comma (c :: t))

/-- The items of an array are a list that a bracket closes. -/
theorem items_eq_listOf (item : Reader Json) (fuel : Nat) (t : Text) :
    items item fuel t = listOf ']' .value item fuel t := by
  induction fuel generalizing t with
  | zero => rfl
  | succ fuel ih =>
    rw [items, listOf]
    -- The two readers differ only in how they tell the closing mark and the comma from the rest.
    refine bind_congr fun (v, u) => ?_
    dsimp only
    cases skipSpace u with
    | nil => rfl
    | cons c w =>
      split
      · next heq =>
        obtain ⟨rfl, rfl⟩ := List.cons.inj heq
        rfl
      · next heq =>
        obtain ⟨rfl, rfl⟩ := List.cons.inj heq
        rw [ih]
        rfl
      · next hclose hcomma =>
        dsimp only
        rw [if_neg fun hc => hclose w (by rw [hc]), if_neg fun hc => hcomma w (by rw [hc])]

/-- A member is a key and then a value. -/
theorem members_eq_listOf (item : Reader Json) (fuel : Nat) (t : Text) :
    members item fuel t = listOf '\x7d' .key (pair item) fuel t := by
  induction fuel generalizing t with
  | zero => rfl
  | succ fuel ih =>
    rw [members, listOf, pair, bind_assoc]
    -- A member is a key and a value, which are read one after the other here as well.
    refine bind_congr fun (k, u) => ?_
    rw [bind_assoc]
    refine bind_congr fun (v, u) => ?_
    rw [pure_bind]
    dsimp only
    cases skipSpace u with
    | nil => rfl
    | cons c w =>
      split
      · next heq =>
        obtain ⟨rfl, rfl⟩ := List.cons.inj heq
        rfl
      · next heq =>
        obtain ⟨rfl, rfl⟩ := List.cons.inj heq
        rw [ih]
        rfl
      · next hclose hcomma =>
        dsimp only
        rw [if_neg fun hc => hclose w (by rw [hc]), if_neg fun hc => hcomma w (by rw [hc])]

/-- What is read after an opening character: the closing one, or a list up to it. -/
def enclosed {α : Type} (close : Char) (missing : Fault) (item : Reader α) : Reader (List α) :=
  fun t =>
    match skipSpace t with
    | [] => listOf close missing item 0 []
    | c :: u =>
      if c = close then .ok ([], u) else listOf close missing item (c :: u).length (c :: u)

/-- After the opening bracket there is the closing one, or a list. -/
theorem enclosed_eq_iff {α : Type} {close : Char} (missing : Fault) (item : Reader α) (t : Text)
    (x : Except Stop (List α × Text)) : enclosed close missing item t = x ↔
      (∃ u, skipSpace t = close :: u ∧ .ok ([], u) = x) ∨ FirstIs (· ≠ close) (skipSpace t) ∧
        listOf close missing item (skipSpace t).length (skipSpace t) = x := by
  unfold enclosed
  cases skipSpace t with
  | nil => simp [firstIs_nil]
  | cons c u =>
    by_cases hc : c = close
    · subst hc
      simp [firstIs_cons]
    · simp [firstIs_cons, hc]

section Lists

variable {α : Type} {close : Char} {missing : Fault} {item : Reader α} {fuel : Nat} {t rest : Text}
  {as : List α}

/-- A list is read item by item. -/
theorem listOf_eq_ok_iff (hclose : close ≠ ',') :
    listOf close missing item (fuel + 1) t = .ok (as, rest) ↔ ∃ a u, item t = .ok (a, u) ∧
      (skipSpace u = close :: rest ∧ as = [a] ∨ ∃ w bs, skipSpace u = ',' :: w ∧
        listOf close missing item fuel (skipSpace w) = .ok (bs, rest) ∧ as = a :: bs) := by
  rw [listOf, bind_eq_ok_iff]
  constructor
  · rintro ⟨⟨a, u⟩, ha, h⟩
    refine ⟨a, u, ha, ?_⟩
    dsimp only at h
    split at h
    · cases h
    · next c w hw =>
      split at h
      · next hc =>
        obtain ⟨rfl, rfl⟩ := Prod.mk.inj (Except.ok.inj h)
        exact .inl ⟨hc ▸ hw, rfl⟩
      · split at h
        · next hc =>
          obtain ⟨⟨bs, v⟩, hbs, h⟩ := bind_eq_ok_iff.1 h
          obtain ⟨rfl, rfl⟩ := Prod.mk.inj (Except.ok.inj h)
          exact .inr ⟨w, bs, hc ▸ hw, hbs, rfl⟩
        · cases h
  · rintro ⟨a, u, ha, ⟨hu, rfl⟩ | ⟨w, bs, hu, hbs, rfl⟩⟩
    · refine ⟨(a, u), ha, ?_⟩
      dsimp only
      rw [hu]
      exact if_pos rfl
    · refine ⟨(a, u), ha, ?_⟩
      dsimp only
      rw [hu]
      dsimp only
      rw [if_neg hclose.symm, if_pos rfl, hbs]
      rfl

end Lists

/-! ## Values -/

/-- The first character says what is read: a string, the items of an array, the members of an
    object, or a word or a number. -/
theorem value_cons (m : Nat) (c : Char) (t : Text) : value (m + 1) (c :: t) =
    if c = '"' then (stringRest (c :: t) t).map fun (ns, u) => (.string (wordingOf ns), u)
    else if c = '[' then
      (enclosed ']' .value (value m) t).map fun (vs, u) => (.array vs, u)
    else if c = '\x7b' then
      (enclosed '\x7d' .key (pair (value m)) t).map fun (ms, u) =>
        (.object (ms.foldl (fun acc (k, v) => Members.insert k v acc) []), u)
    else scalar (c :: t) := by
  rw [value.eq_def]
  dsimp only
  split
  · next heq =>
    obtain ⟨rfl, rfl⟩ := List.cons.inj heq
    rw [if_pos rfl]
    cases stringRest _ t <;> rfl
  · next heq =>
    obtain ⟨rfl, rfl⟩ := List.cons.inj heq
    rw [if_neg (by decide), if_pos rfl, enclosed]
    cases skipSpace t with
    | nil => rfl
    | cons c u =>
      split
      · next heq =>
        obtain ⟨rfl, rfl⟩ := List.cons.inj heq
        rfl
      · next hclose =>
        dsimp only
        rw [if_neg fun hc => hclose u (by rw [hc]), items_eq_listOf]
        cases listOf ']' .value (value m) (c :: u).length (c :: u) <;> rfl
  · next heq =>
    obtain ⟨rfl, rfl⟩ := List.cons.inj heq
    rw [if_neg (by decide), if_neg (by decide), if_pos rfl, enclosed]
    cases skipSpace t with
    | nil => rfl
    | cons c u =>
      split
      · next heq =>
        obtain ⟨rfl, rfl⟩ := List.cons.inj heq
        rfl
      · next hclose =>
        dsimp only
        rw [if_neg fun hc => hclose u (by rw [hc]), members_eq_listOf]
        cases listOf '\x7d' .key (pair (value m)) (c :: u).length (c :: u) <;> rfl
  · next hquote hbracket hbrace =>
    rw [if_neg fun hc => hquote t (by rw [hc]), if_neg fun hc => hbracket t (by rw [hc]),
      if_neg fun hc => hbrace t (by rw [hc])]

/-- A value with a quote is a string. -/
theorem value_string (m : Nat) (t : Text) : value (m + 1) ('"' :: t) =
    (stringRest ('"' :: t) t).map fun (ns, u) => (.string (wordingOf ns), u) := by
  rw [value_cons, if_pos rfl]

/-- A value with a bracket is an array. -/
theorem value_bracket (m : Nat) (t : Text) : value (m + 1) ('[' :: t) =
    (enclosed ']' .value (value m) t).map fun (vs, u) => (.array vs, u) := by
  rw [value_cons, if_neg (by decide), if_pos rfl]

theorem value_brace (m : Nat) (t : Text) : value (m + 1) ('\x7b' :: t) =
    (enclosed '\x7d' .key (pair (value m)) t).map fun (ms, u) =>
      (.object (ms.foldl (fun acc (k, v) => Members.insert k v acc) []), u) := by
  rw [value_cons, if_neg (by decide), if_neg (by decide), if_pos rfl]

/-- The text starts with a word or a number, if with any value. -/
abbrev Atomic : Text → Prop := FirstIs fun c => c ≠ '"' ∧ c ≠ '[' ∧ c ≠ '\x7b'

/-- A value begins with a quote, a bracket or a brace, or else is atomic. -/
theorem first_cases (t : Text) :
    (∃ u, t = '"' :: u) ∨ (∃ u, t = '[' :: u) ∨ (∃ u, t = '\x7b' :: u) ∨ Atomic t := by
  rcases t with _ | ⟨c, t⟩
  · exact .inr (.inr (.inr firstIs_nil))
  · by_cases hquote : c = '"'
    · exact .inl ⟨t, by rw [hquote]⟩
    by_cases hbracket : c = '['
    · exact .inr (.inl ⟨t, by rw [hbracket]⟩)
    by_cases hbrace : c = '\x7b'
    · exact .inr (.inr (.inl ⟨t, by rw [hbrace]⟩))
    · exact .inr (.inr (.inr (firstIs_cons.2 ⟨hquote, hbracket, hbrace⟩)))

theorem value_atomic {m : Nat} {t : Text} (ht : Atomic t) (hm : 0 < m) : value m t = scalar t := by
  obtain ⟨m, rfl⟩ := Nat.exists_eq_add_one.2 hm
  cases t with
  | nil => rfl
  | cons c t =>
    obtain ⟨hquote, hbracket, hbrace⟩ := firstIs_cons.1 ht
    rw [value_cons, if_neg hquote, if_neg hbracket, if_neg hbrace]

/-- What starts as a number does is atomic. -/
theorem value_numeric {m : Nat} {t : Text} (ht : Numeric t) (hm : 0 < m) : value m t = scalar t :=
  value_atomic (ht.imp (fun _ hc => ⟨ne_of_isDigit hc, ne_of_isDigit hc, ne_of_isDigit hc⟩)
    (by decide)) hm

end Json

end DbmlRestore
