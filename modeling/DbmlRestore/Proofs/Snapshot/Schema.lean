import DbmlRestore.Proofs.Snapshot.Version
import DbmlRestore.Proofs.Snapshot.Wire

/-!
# The schema of the wire form

What a JSON value has to be like to be the wire form of a snapshot, said without the order in which
it is looked at (`Payload.IsSnapshot`): which members the objects may have and must have, under
which names, and what stands there. An object has no other members, and none of its fields twice,
under both of its names (`Payload.HasOnly`).

Reading a value succeeds for these values and no others, and gives the entries and the comments that
stand there, in their order (`Snapshot.ofJson_eq_ok_iff`). The wire form of what was read gives the
same snapshot again.
-/

namespace DbmlRestore

theorem Json.Members.exists_find?_of_mem {ms : Json.Members} {m : Wording × Json} {name : Text}
    (hm : m ∈ ms) (hkey : m.1 = .text name) : ∃ v, find? ms name = some v := by
  rw [find?]
  cases hfind : List.find? (fun m => m.1 = .text name) ms with
  | none => exact absurd (decide_eq_true hkey) (List.find?_eq_none.1 hfind m hm)
  | some m => exact ⟨m.2, rfl⟩

theorem Json.Members.mem_of_find?_eq_some {ms : Json.Members} {name : Text} {v : Json}
    (h : find? ms name = some v) : (Wording.text name, v) ∈ ms := by
  obtain ⟨m, hm, rfl⟩ := Option.map_eq_some_iff.1 h
  have hkey := List.find?_some hm
  rw [decide_eq_true_eq] at hkey
  rw [← hkey]
  exact List.mem_of_find?_eq_some hm

/-- The names of the kinds are told apart. -/
theorem CommentKind.ofName?_eq_some_iff {t : Text} {k : CommentKind} :
    ofName? t = some k ↔ t = k.name := by
  refine ⟨fun h => ?_, fun h => ?_⟩
  · have := List.find?_some h
    exact (of_decide_eq_true this).symm
  · rw [h]
    cases k <;> rfl

namespace Payload

/-! ## Members of objects -/

namespace FieldName

/-- The names under which a field may stand. -/
def names (f : FieldName) : List Text := f.main :: f.alternative.toList

/-- The value stands under a name of the field. -/
def Holds (f : FieldName) (ms : Json.Members) (v : Json) : Prop :=
  ∃ name ∈ f.names, Json.Members.find? ms name = some v

/-- There is no value under any name of the field. -/
def IsAbsent (f : FieldName) (ms : Json.Members) : Prop :=
  ∀ name ∈ f.names, Json.Members.find? ms name = none

/-- The field does not stand under both of its names. -/
def IsSingle (f : FieldName) (ms : Json.Members) : Prop :=
  ∀ name ∈ f.alternative, Json.Members.find? ms f.main = none ∨ Json.Members.find? ms name = none

variable {f : FieldName} {ms : Json.Members} {v : Json}

/-- A field is not found exactly if none of its names is there. -/
theorem find?_eq_none_iff : f.find? ms = none ↔ f.IsAbsent ms := by
  obtain ⟨main, alternative⟩ := f
  rw [FieldName.find?, IsAbsent, names]
  cases hmain : Json.Members.find? ms main with
  | some u => simp [hmain]
  | none => cases alternative <;> simp [hmain]

/-- A field is found under one of its names. -/
theorem of_find?_eq_some {key : Text} (h : f.find? ms = some (key, v)) :
    key ∈ f.names ∧ Json.Members.find? ms key = some v := by
  unfold FieldName.find? at h
  split at h
  · next hmain =>
    obtain ⟨rfl, rfl⟩ := Prod.mk.inj (Option.some.inj h)
    exact ⟨List.mem_cons_self, hmain⟩
  · split at h
    · exact nomatch h
    · next name hname =>
      obtain ⟨u, hu, heq⟩ := Option.map_eq_some_iff.1 h
      obtain ⟨rfl, rfl⟩ := Prod.mk.inj heq
      refine ⟨List.mem_cons_of_mem _ ?_, hu⟩
      rw [hname]
      exact List.mem_singleton_self _

/-- A field that does not stand under both of its names is found under each of them. -/
theorem find?_eq_some (hsingle : f.IsSingle ms) {key : Text} (hkey : key ∈ f.names)
    (h : Json.Members.find? ms key = some v) : f.find? ms = some (key, v) := by
  rcases List.mem_cons.1 hkey with rfl | hkey
  · rw [FieldName.find?, h]
  · have hname := Option.mem_toList.1 hkey
    have hmain := (hsingle key hname).resolve_right (by rw [h]; exact Option.some_ne_none v)
    rw [FieldName.find?, hmain, Option.mem_def.1 hname]
    show (Json.Members.find? ms key).map _ = _
    rw [h]
    rfl

/-- A field that stands under one name only is found with the value that it holds. -/
theorem exists_find?_iff (hsingle : f.IsSingle ms) :
    (∃ key, f.find? ms = some (key, v)) ↔ f.Holds ms v := by
  constructor
  · rintro ⟨key, h⟩
    exact ⟨key, of_find?_eq_some h⟩
  · rintro ⟨key, hkey, h⟩
    exact ⟨key, find?_eq_some hsingle hkey h⟩

end FieldName

/-- The members of an object are fields among the given ones, each under one name. -/
structure HasOnly (fs : List FieldName) (ms : Json.Members) : Prop where
  known : ∀ m ∈ ms, ∃ f ∈ fs, ∃ name ∈ f.names, m.1 = .text name
  single : ∀ f ∈ fs, f.IsSingle ms

/-- The field stands there with a value that is as `R` says. -/
def Requires {α : Type} (f : FieldName) (R : Json → α → Prop) (ms : Json.Members) (x : α) : Prop :=
  ∃ v, f.Holds ms v ∧ R v x

/-- The field stands there with such a value, or is absent and stands for `absent`. -/
def Allows {α : Type} (f : FieldName) (absent : α) (R : Json → α → Prop) (ms : Json.Members)
    (x : α) : Prop :=
  f.IsAbsent ms ∧ x = absent ∨ Requires f R ms x

/-! ## Values -/

/-- The value is this string, which may be a broken one. -/
def IsText (v : Json) (w : Wording) : Prop := v = .string w

/-- The value is null, or as `R` says. -/
def IsNullable {α : Type} (R : Json → α → Prop) (v : Json) (x : Option α) : Prop :=
  v = .null ∧ x = none ∨ ∃ y, R v y ∧ x = some y

/-- The value is a list of items that are as `R` says, one by one. -/
def IsList {α : Type} (R : Json → α → Prop) (v : Json) (xs : List α) : Prop :=
  ∃ vs, v = .array vs ∧ List.Forall₂ R vs xs

theorem IsList.forall_of_imp {α : Type} {R : Json → α → Prop} {P : α → Prop} {v : Json}
    {xs : List α} (h : IsList R v xs) (hP : ∀ v x, R v x → P x) : ∀ x ∈ xs, P x := by
  obtain ⟨vs, -, hvs⟩ := h
  induction hvs with
  | nil => exact fun x hx => absurd hx List.not_mem_nil
  | cons hx _ ih => exact List.forall_mem_cons.2 ⟨hP _ _ hx, ih⟩

/-- The value is an object with these fields and no others, and its members are as `P` says. -/
def IsObject (fs : List FieldName) (P : Json.Members → Prop) (v : Json) : Prop :=
  ∃ ms, v = .object ms ∧ HasOnly fs ms ∧ P ms

/-- An entry of the order: the name of a table, and that of a schema or none. -/
def IsEntry (v : Json) (e : TableEntry Wording) : Prop :=
  IsObject [tableName, schemaName] (fun ms =>
    Requires tableName IsText ms e.table ∧
    Allows schemaName none (IsNullable IsText) ms e.schema) v

/-- The context of a comment: the name of a table or none, and that of a field or none. -/
def IsContext (v : Json) (a : Anchor Wording) : Prop :=
  IsObject [tableName, fieldName] (fun ms =>
    Allows tableName none (IsNullable IsText) ms a.table ∧
    Allows fieldName none (IsNullable IsText) ms a.field) v

/-- The value is the name of a kind of comment. -/
def IsKind (v : Json) (k : CommentKind) : Prop := v = .string (.text k.name)

/-- A comment: its kind, its text, and its context if it has one. The anchor goes with the kind. -/
def IsComment (v : Json) (c : Comment Wording) : Prop :=
  IsObject [.plain "type", .plain "text", .plain "context"] (fun ms =>
    Requires (.plain "type") IsKind ms c.kind ∧
    Requires (.plain "text") IsText ms c.text ∧
    (∃ a, Allows (.plain "context") none (IsNullable IsContext) ms a ∧ c.anchor = a.getD .none) ∧
    Comment.AnchorRule c.kind c.anchor) v

/-- A snapshot: a version that is read as one, the tables in order, and the comments, each of which
    may be left out. -/
def IsSnapshot (v : Json) (s : Snapshot Wording) : Prop :=
  IsObject [.plain "version", tableOrder, .plain "comments"] (fun ms =>
    (FieldName.IsAbsent (.plain "version") ms ∨
      ∃ v, FieldName.Holds (.plain "version") ms v ∧ ReadsAsOne v) ∧
    Allows tableOrder [] (IsList IsEntry) ms s.order ∧
    Allows (.plain "comments") [] (IsList IsComment) ms s.comments) v

/-! ## What the checks accept -/

/-- An object passes if all its keys are texts. -/
theorem object_eq_ok_iff {form : String} {v : Json} {ms : Json.Members} :
    object form v = .ok ms ↔ v = .object ms ∧ ∀ m ∈ ms, m.1.isBroken = false := by
  cases v with
  | object members =>
    rw [object, Json.object.injEq]
    split
    · next h =>
      obtain ⟨m, hm, hbroken⟩ := List.any_eq_true.1 h
      refine iff_of_false nofun ?_
      rintro ⟨rfl, hall⟩
      rw [hall m hm] at hbroken
      exact Bool.false_ne_true hbroken
    · next h =>
      rw [Except.ok.injEq]
      refine ⟨?_, And.left⟩
      rintro rfl
      exact ⟨rfl, fun m hm => Bool.eq_false_iff.2 fun hbroken =>
        h (List.any_eq_true.2 ⟨m, hm, hbroken⟩)⟩
  | null | bool | int | float | string | array => exact iff_of_false nofun nofun

/-- No two of the fields have a name in common, and no field has one name twice. -/
def AreDistinct (fs : List FieldName) : Prop :=
  ∀ f ∈ fs, f.main ∉ f.alternative ∧ ∀ g ∈ fs, ∀ name ∈ f.names, name ∈ g.names → f = g

instance : DecidablePred AreDistinct := fun fs =>
  inferInstanceAs (Decidable (∀ f ∈ fs, f.main ∉ f.alternative ∧
    ∀ g ∈ fs, ∀ name ∈ f.names, name ∈ g.names → f = g))

/-- No key is refused if each is the one under which a field is found. -/
theorem noOthers_eq_ok_iff_forall {fs : List FieldName} {ms : Json.Members} :
    noOthers fs ms = .ok () ↔
      ∀ m ∈ ms, ∃ f ∈ fs, ∃ key v, f.find? ms = some (key, v) ∧ m.1 = .text key := by
  have hany : ∀ m : Wording × Json,
      ((fs.filterMap fun f => (f.find? ms).map (·.1)).any fun key => m.1 = .text key) = true ↔
        ∃ f ∈ fs, ∃ key v, f.find? ms = some (key, v) ∧ m.1 = .text key := by
    intro m
    rw [List.any_eq_true]
    constructor
    · rintro ⟨key, hmem, hkey⟩
      obtain ⟨f, hf, hmap⟩ := List.mem_filterMap.1 hmem
      obtain ⟨⟨key, v⟩, hfind, rfl⟩ := Option.map_eq_some_iff.1 hmap
      exact ⟨f, hf, key, v, hfind, of_decide_eq_true hkey⟩
    · rintro ⟨f, hf, key, v, hfind, hkey⟩
      exact ⟨key, List.mem_filterMap.2 ⟨f, hf, by rw [hfind]; rfl⟩, decide_eq_true hkey⟩
  unfold noOthers
  dsimp only
  split
  · next key v hfind =>
    -- The key that is found to be left over is none of a field.
    refine iff_of_false nofun fun h => ?_
    have hrefused := List.find?_some hfind
    rw [(hany _).2 (h _ (List.mem_of_find?_eq_some hfind))] at hrefused
    exact Bool.false_ne_true hrefused
  · next hfind =>
    refine iff_of_true rfl fun m hm => (hany m).1 ?_
    have hkept := List.find?_eq_none.1 hfind m hm
    rwa [Bool.not_eq_true', Bool.not_eq_false] at hkept

/-- No key is refused if and only if the fields stand alone, each under one name. -/
theorem noOthers_eq_ok_iff {fs : List FieldName} (hfs : AreDistinct fs) {ms : Json.Members} :
    noOthers fs ms = .ok () ↔ HasOnly fs ms := by
  rw [noOthers_eq_ok_iff_forall]
  constructor
  · intro h
    refine ⟨fun m hm => ?_, fun f hf name hname => ?_⟩
    · obtain ⟨f, hf, key, v, hfind, hkey⟩ := h m hm
      exact ⟨f, hf, key, (FieldName.of_find?_eq_some hfind).1, hkey⟩
    · -- The value under the second name would be found, and it is not the one of this field.
      by_contra hboth
      rw [not_or, ← ne_eq, ← ne_eq, Option.ne_none_iff_exists', Option.ne_none_iff_exists'] at hboth
      obtain ⟨⟨u, hu⟩, w, hw⟩ := hboth
      obtain ⟨g, hg, key, v, hfind, hkey⟩ := h _ (Json.Members.mem_of_find?_eq_some hw)
      cases hkey
      have hmem : name ∈ f.names := List.mem_cons_of_mem _ (Option.mem_toList.2 hname)
      obtain rfl := (hfs f hf).2 g hg name hmem (FieldName.of_find?_eq_some hfind).1
      rw [FieldName.find?, hu] at hfind
      exact (hfs f hf).1 ((Prod.mk.inj (Option.some.inj hfind)).1 ▸ hname)
  · rintro ⟨hknown, hsingle⟩ m hm
    obtain ⟨f, hf, name, hname, hkey⟩ := hknown m hm
    obtain ⟨v, hv⟩ := Json.Members.exists_find?_of_mem hm hkey
    exact ⟨f, hf, name, v, FieldName.find?_eq_some (hsingle f hf) hname hv, hkey⟩

/-- The keys of known fields are texts. -/
theorem HasOnly.isBroken_eq_false {fs : List FieldName} {ms : Json.Members} (h : HasOnly fs ms) :
    ∀ m ∈ ms, m.1.isBroken = false := fun m hm => by
  obtain ⟨f, -, name, -, hkey⟩ := h.known m hm
  rw [hkey]
  rfl

section Fields

variable {α : Type} {check : Check α} {R : Json → α → Prop}
  (hcheck : ∀ v x, check v = .ok x ↔ R v x) {fs : List FieldName} {f : FieldName}
  {ms : Json.Members}
include hcheck

/-- A required field passes if it is there with a value that passes. -/
theorem required_eq_ok_iff (h : HasOnly fs ms) (hf : f ∈ fs) {x : α} :
    required f check ms = .ok x ↔ Requires f R ms x := by
  have hsingle := h.single f hf
  constructor
  · intro h
    unfold required at h
    split at h
    · next key v hfind =>
      exact ⟨v, (FieldName.exists_find?_iff hsingle).1 ⟨key, hfind⟩,
        (hcheck v x).1 (mapError_eq_ok_iff.1 h)⟩
    · exact nomatch h
  · rintro ⟨v, hholds, hv⟩
    obtain ⟨key, hfind⟩ := (FieldName.exists_find?_iff hsingle).2 hholds
    rw [required, hfind]
    exact mapError_eq_ok_iff.2 ((hcheck v x).2 hv)

/-- An optional field passes if it is absent, too. -/
theorem optional_eq_ok_iff (h : HasOnly fs ms) (hf : f ∈ fs) {absent x : α} :
    optional f absent check ms = .ok x ↔ Allows f absent R ms x := by
  have hsingle := h.single f hf
  constructor
  · intro h
    unfold optional at h
    split at h
    · next key v hfind =>
      exact .inr ⟨v, (FieldName.exists_find?_iff hsingle).1 ⟨key, hfind⟩,
        (hcheck v x).1 (mapError_eq_ok_iff.1 h)⟩
    · next hnone =>
      exact .inl ⟨FieldName.find?_eq_none_iff.1 hnone, (Except.ok.inj h).symm⟩
  · rintro (⟨habsent, rfl⟩ | ⟨v, hholds, hv⟩)
    · rw [optional, FieldName.find?_eq_none_iff.2 habsent]
    · obtain ⟨key, hfind⟩ := (FieldName.exists_find?_iff hsingle).2 hholds
      rw [optional, hfind]
      exact mapError_eq_ok_iff.2 ((hcheck v x).2 hv)

/-- A nullable value passes if it is null, too, which is told from the other values by `hnull`. -/
theorem nullable_eq_ok_iff (hnull : ∀ x, ¬ R .null x) (v : Json) (x : Option α) :
    nullable check v = .ok x ↔ IsNullable R v x := by
  unfold nullable IsNullable
  split
  · rw [Except.ok.injEq]
    refine ⟨fun h => .inl ⟨rfl, h.symm⟩, ?_⟩
    rintro (⟨-, rfl⟩ | ⟨y, hy, -⟩)
    · rfl
    · exact absurd hy (hnull y)
  · next hne =>
    rw [map_eq_ok_iff]
    constructor
    · rintro ⟨y, hy, rfl⟩
      exact .inr ⟨y, (hcheck v y).1 hy, rfl⟩
    · rintro (⟨rfl, -⟩ | ⟨y, hy, rfl⟩)
      · exact absurd rfl hne
      · exact ⟨y, (hcheck v y).2 hy, rfl⟩

/-- Items pass if each of them does, and the results stand in their order. -/
theorem itemsFrom_eq_ok_iff {index : Nat} {vs : List Json} {xs : List α} :
    itemsFrom check index vs = .ok xs ↔ List.Forall₂ R vs xs := by
  induction vs generalizing index xs with
  | nil =>
    rw [itemsFrom, Except.ok.injEq]
    refine ⟨fun h => h ▸ .nil, fun h => ?_⟩
    cases h
    rfl
  | cons v vs ih =>
    rw [itemsFrom, bind_eq_ok_iff]
    constructor
    · rintro ⟨x, hx, h⟩
      obtain ⟨ys, hys, h⟩ := bind_eq_ok_iff.1 h
      rw [← Except.ok.inj h]
      exact .cons ((hcheck v x).1 (mapError_eq_ok_iff.1 hx)) (ih.1 hys)
    · intro h
      cases h with
      | @cons _ x _ ys hx hys =>
        exact ⟨x, mapError_eq_ok_iff.2 ((hcheck v x).2 hx), bind_eq_ok_iff.2 ⟨ys, ih.2 hys, rfl⟩⟩

/-- A list passes if its items do, with the results in their order. -/
theorem list_eq_ok_iff (v : Json) (xs : List α) : list check v = .ok xs ↔ IsList R v xs := by
  cases v with
  | array vs =>
    refine (itemsFrom_eq_ok_iff hcheck).trans ⟨fun h => ⟨vs, rfl, h⟩, ?_⟩
    rintro ⟨_, heq, h⟩
    cases heq
    exact h
  | null | bool | int | float | string | object =>
    exact iff_of_false nofun fun ⟨_, h, _⟩ => nomatch h

end Fields

/-- A text passes as it is. -/
theorem text_eq_ok_iff (v : Json) (w : Wording) : text v = .ok w ↔ IsText v w := by
  cases v with
  | string w => simp [text, IsText]
  | null | bool | int | float | array | object => exact iff_of_false nofun fun h => nomatch h

/-- A kind passes if it is one of the names. -/
theorem kind_eq_ok_iff (v : Json) (k : CommentKind) : kind v = .ok k ↔ IsKind v k := by
  unfold kind IsKind
  split
  · next t =>
    rw [Json.string.injEq, Wording.text.injEq, ← CommentKind.ofName?_eq_some_iff]
    split
    · next hk => rw [hk, Except.ok.injEq, Option.some.injEq]
    · next hnone => rw [hnone]; exact iff_of_false nofun nofun
  · exact iff_of_false nofun fun h => nomatch h
  · next hne _ => exact iff_of_false nofun fun h => hne _ h

/-! ## The checks of objects -/

/-- No text is null. -/
theorem not_isText_null (w : Wording) : ¬ IsText .null w := nofun

/-- Reading an object comes down to its members, if these are the fields that are known. -/
theorem exists_object_iff {fs : List FieldName} (hfs : AreDistinct fs) {form : String} {v : Json}
    {P Q : Json.Members → Prop} (hPQ : ∀ ms, HasOnly fs ms → (Q ms ↔ P ms)) :
    (∃ ms, object form v = .ok ms ∧ noOthers fs ms = .ok () ∧ Q ms) ↔ IsObject fs P v := by
  constructor
  · rintro ⟨ms, hv, hothers, hQ⟩
    have honly := (noOthers_eq_ok_iff hfs).1 hothers
    exact ⟨ms, (object_eq_ok_iff.1 hv).1, honly, (hPQ ms honly).1 hQ⟩
  · rintro ⟨ms, hv, honly, hP⟩
    exact ⟨ms, object_eq_ok_iff.2 ⟨hv, honly.isBroken_eq_false⟩, (noOthers_eq_ok_iff hfs).2 honly,
      (hPQ ms honly).2 hP⟩

/-- A name passes if it is a text or null. -/
theorem name_eq_ok_iff (v : Json) (w : Option Wording) :
    nullable text v = .ok w ↔ IsNullable IsText v w :=
  nullable_eq_ok_iff text_eq_ok_iff not_isText_null v w

/-- An entry of the order passes if its names do. -/
theorem entry_eq_ok_iff (v : Json) (e : TableEntry Wording) : entry v = .ok e ↔ IsEntry v e := by
  have hparts : entry v = .ok e ↔ ∃ ms, object "TableOrderPayload" v = .ok ms ∧
      noOthers [tableName, schemaName] ms = .ok () ∧ required tableName text ms = .ok e.table ∧
      optional schemaName none (nullable text) ms = .ok e.schema := by
    simp only [entry, bind_eq_ok_iff]
    constructor
    · rintro ⟨ms, hms, table, htable, schema, hschema, ⟨⟩, hothers, ⟨⟩⟩
      exact ⟨ms, hms, hothers, htable, hschema⟩
    · rintro ⟨ms, hms, hothers, htable, hschema⟩
      exact ⟨ms, hms, _, htable, _, hschema, (), hothers, rfl⟩
  rw [hparts]
  refine exists_object_iff (by decide +kernel) fun ms h => and_congr ?_ ?_
  · exact required_eq_ok_iff text_eq_ok_iff h (by simp)
  · exact optional_eq_ok_iff name_eq_ok_iff h (by simp)

/-- A context passes if its names do, either of which may be left out. -/
theorem context_eq_ok_iff (v : Json) (a : Anchor Wording) : context v = .ok a ↔ IsContext v a := by
  have hparts : context v = .ok a ↔ ∃ ms, object "CommentContextPayload" v = .ok ms ∧
      noOthers [tableName, fieldName] ms = .ok () ∧
      optional tableName none (nullable text) ms = .ok a.table ∧
      optional fieldName none (nullable text) ms = .ok a.field := by
    simp only [context, bind_eq_ok_iff]
    constructor
    · rintro ⟨ms, hms, table, htable, field, hfield, ⟨⟩, hothers, ⟨⟩⟩
      exact ⟨ms, hms, hothers, htable, hfield⟩
    · rintro ⟨ms, hms, hothers, htable, hfield⟩
      exact ⟨ms, hms, _, htable, _, hfield, (), hothers, rfl⟩
  rw [hparts]
  refine exists_object_iff (by decide +kernel) fun ms h => and_congr ?_ ?_
  · exact optional_eq_ok_iff name_eq_ok_iff h (by simp)
  · exact optional_eq_ok_iff name_eq_ok_iff h (by simp)

theorem not_isContext_null (a : Anchor Wording) : ¬ IsContext .null a := by
  rintro ⟨ms, h, -⟩
  cases h

/-- The anchor is checked last. -/
theorem comment_eq_ok_iff (v : Json) (c : Comment Wording) : comment v = .ok c ↔ IsComment v c := by
  -- The steps of the check in another order: all of them have to pass.
  have hparts : comment v = .ok c ↔ ∃ ms, object "CommentPayload" v = .ok ms ∧
      noOthers [.plain "type", .plain "text", .plain "context"] ms = .ok () ∧
      required (.plain "type") kind ms = .ok c.kind ∧
      required (.plain "text") text ms = .ok c.text ∧
      (∃ a, optional (.plain "context") none (nullable context) ms = .ok a ∧
        c.anchor = a.getD .none) ∧
      Comment.AnchorRule c.kind c.anchor := by
    simp only [comment, bind_eq_ok_iff]
    constructor
    · rintro ⟨ms, hms, k, hkind, t, htext, a, hcontext, ⟨⟩, hothers, h⟩
      split at h
      · next hrule =>
        cases h
        exact ⟨ms, hms, hothers, hkind, htext, ⟨a, hcontext, rfl⟩, hrule⟩
      · cases h
    · rintro ⟨ms, hms, hothers, hkind, htext, ⟨a, hcontext, hanchor⟩, hrule⟩
      rw [hanchor] at hrule
      refine ⟨ms, hms, _, hkind, _, htext, a, hcontext, (), hothers, ?_⟩
      rw [if_pos hrule, ← hanchor]
      rfl
  rw [hparts]
  refine exists_object_iff (by decide +kernel) fun ms h => ?_
  refine and_congr ?_ (and_congr ?_ (and_congr_left fun _ => exists_congr fun a =>
    and_congr_left fun _ => ?_))
  · exact required_eq_ok_iff kind_eq_ok_iff h (by simp)
  · exact required_eq_ok_iff text_eq_ok_iff h (by simp)
  · exact optional_eq_ok_iff (nullable_eq_ok_iff context_eq_ok_iff not_isContext_null) h (by simp)

/-- A snapshot passes if its version, its order and its comments do. -/
theorem snapshot_eq_ok_iff (v : Json) (s : Snapshot Wording) : snapshot v = .ok s ↔ IsSnapshot v s := by
  have hparts : snapshot v = .ok s ↔ ∃ ms, object "SnapshotPayload" v = .ok ms ∧
      noOthers [.plain "version", tableOrder, .plain "comments"] ms = .ok () ∧
      (∃ i, optional (.plain "version") Snapshot.version version ms = .ok i) ∧
      optional tableOrder [] (list entry) ms = .ok s.order ∧
      optional (.plain "comments") [] (list comment) ms = .ok s.comments := by
    simp only [snapshot, bind_eq_ok_iff]
    constructor
    · rintro ⟨ms, hms, i, hversion, order, horder, comments, hcomments, ⟨⟩, hothers, ⟨⟩⟩
      exact ⟨ms, hms, hothers, ⟨i, hversion⟩, horder, hcomments⟩
    · rintro ⟨ms, hms, hothers, ⟨i, hversion⟩, horder, hcomments⟩
      exact ⟨ms, hms, i, hversion, _, horder, _, hcomments, (), hothers, rfl⟩
  rw [hparts]
  refine exists_object_iff (by decide +kernel) fun ms h => and_congr ?_ (and_congr ?_ ?_)
  · -- The version is read as one or is absent, and is not kept.
    rw [exists_congr fun i => optional_eq_ok_iff version_eq_ok_iff h List.mem_cons_self]
    constructor
    · rintro ⟨i, ⟨habsent, -⟩ | ⟨v, hv, -, hone⟩⟩
      · exact .inl habsent
      · exact .inr ⟨v, hv, hone⟩
    · rintro (habsent | ⟨v, hv, hone⟩)
      · exact ⟨_, .inl ⟨habsent, rfl⟩⟩
      · exact ⟨1, .inr ⟨v, hv, rfl, hone⟩⟩
  · exact optional_eq_ok_iff (list_eq_ok_iff entry_eq_ok_iff) h (by simp)
  · exact optional_eq_ok_iff (list_eq_ok_iff comment_eq_ok_iff) h (by simp)

end Payload

namespace Snapshot

/-- The anchors of the comments in a snapshot that follows the schema go with their kinds. -/
theorem anchorRule_of_isSnapshot {v : Json} {s : Snapshot Wording} (h : Payload.IsSnapshot v s) :
    ∀ c ∈ s.comments, Comment.AnchorRule c.kind c.anchor := by
  obtain ⟨ms, -, -, -, -, ⟨-, hnil⟩ | ⟨u, -, hcomments⟩⟩ := h
  · rw [hnil]
    exact fun c hc => absurd hc List.not_mem_nil
  · refine hcomments.forall_of_imp fun v c hc => ?_
    obtain ⟨ms, -, -, -, -, -, hrule⟩ := hc
    exact hrule

/-- A JSON value is read as a snapshot if and only if it is as the schema says, and what is read is
    what stands there. Its wire form gives it back. -/
theorem ofJson_eq_ok_iff (v : Json) (s : Snapshot Wording) :
    (ofJson v = .ok s ↔ Payload.IsSnapshot v s) ∧ (ofJson v = .ok s → ofJson s.toJson = .ok s) := by
  have hiff : ofJson v = .ok s ↔ Payload.IsSnapshot v s :=
    mapError_eq_ok_iff.trans (Payload.snapshot_eq_ok_iff v s)
  exact ⟨hiff, fun h => ofJson_toJson (anchorRule_of_isSnapshot (hiff.1 h))⟩

end Snapshot

end DbmlRestore
