import DbmlRestore.Proofs.Json.Ascii
import DbmlRestore.Snapshot.Wire

/-!
# Reading back snapshots

The wire form of a snapshot of texts is a plain JSON value (`Snapshot.plain_toJson`), so that
its text is ASCII and gives the value back. Reading the value gives the entries of the order
as they are, and each comment whose anchor goes with its kind
(`Payload.comment_commentJson`): null names and empty contexts are left out by the one and
made up by the other. So a snapshot is read back, unless the anchor of one of its comments
does not go with the kind (`Snapshot.ofText_toText`): then the first such comment is
complained of.
-/

namespace DbmlRestore

/-- The layout for a width that may be missing; there are no fewer than no spaces. -/
def Json.Indent.ofWidth : Option Int → Json.Indent
  | none => .oneLine
  | some n => .spaces n.toNat

namespace Snapshot

open Json (Plain)

/-! ## The wire form is plain -/

theorem plain_optionalName (t : Option Text) : Plain (optionalName (t.map .text)) := by
  cases t with
  | none => exact .null
  | some t => exact .text t

/-- Members are plain one by one, as long as no key is there again. -/
theorem plain_member (key : String) {v : Json} {ms : Json.Members} (hv : Plain v)
    (hms : Plain (.object ms)) (hkey : Wording.text key.toList ∉ ms.map Prod.fst) :
    Plain (.object (member key v :: ms)) := by
  cases hms with
  | object hkeys hnodup hplain =>
    refine .object ?_ (List.nodup_cons.2 ⟨hkey, hnodup⟩) ?_
    · exact List.forall_mem_cons.2 ⟨⟨_, rfl⟩, hkeys⟩
    · exact List.forall_mem_cons.2 ⟨hv, hplain⟩

theorem plain_noMembers : Plain (.object []) :=
  .object (fun _ h => nomatch h) List.nodup_nil fun _ h => nomatch h

/-- An entry of the order is plain. -/
theorem plain_entryJson (e : TableEntry) : Plain (entryJson (e.map .text)) := by
  refine plain_member _ (.text _) (plain_member _ (plain_optionalName _) plain_noMembers ?_) ?_
  · exact List.not_mem_nil
  · simp [member]

/-- The names of an anchor are plain, as a missing one is left out. -/
theorem plain_anchor (a : Anchor) : Plain (.object (anchorMembers (a.map .text))) := by
  obtain ⟨table, field⟩ := a
  have hfield : Plain (.object (anchorMembers (Anchor.map .text ⟨none, field⟩))) := by
    cases field with
    | none => exact plain_noMembers
    | some f => exact plain_member _ (.text f) plain_noMembers List.not_mem_nil
  cases table with
  | none => exact hfield
  | some t =>
    refine plain_member _ (.text t) hfield ?_
    cases field <;> simp [member]

/-- A comment is plain, as its members are texts and an anchor. -/
theorem plain_commentJson (c : Comment) : Plain (commentJson (c.map .text)) := by
  have hcontext : Plain (.object (if (anchorMembers (c.anchor.map .text)).isEmpty then [] else
      [member "context" (.object (anchorMembers (c.anchor.map .text)))])) := by
    split
    · exact plain_noMembers
    · exact plain_member _ (plain_anchor c.anchor) plain_noMembers List.not_mem_nil
  refine plain_member _ (.text _) (plain_member _ (.text _) hcontext ?_) ?_
  · split <;> simp [member]
  · split <;> simp [member]

theorem plain_array_map {α : Type} {f : α → Json} (h : ∀ x, Plain (f x)) (xs : List α) :
    Plain (.array (xs.map f)) := by
  refine .array fun v hv => ?_
  obtain ⟨x, -, rfl⟩ := List.mem_map.1 hv
  exact h x

theorem plain_toJson (s : Snapshot) : Plain (s.map .text).toJson := by
  have hcomments := plain_member "comments"
    (plain_array_map plain_commentJson s.comments) plain_noMembers List.not_mem_nil
  have horder := plain_member "tableOrder"
    (plain_array_map plain_entryJson s.order) hcomments (by simp [member])
  rw [toJson, map, List.map_map, List.map_map]
  exact plain_member _ (.int (by decide)) horder (by simp [member])

end Snapshot

/-! ## The checks of the wire form -/

namespace Payload

open Snapshot

/-- An entry of the order is read back. -/
theorem entry_entryJson (e : TableEntry Wording) : entry (entryJson e) = .ok e := by
  obtain ⟨table, schema⟩ := e
  cases schema <;> rfl

/-- A comment is read back if its anchor goes with its kind. -/
theorem comment_commentJson (c : Comment Wording) :
    comment (commentJson c) =
      if Comment.AnchorRule c.kind c.anchor then .ok c else .error (.here (.anchor c.kind)) := by
  obtain ⟨k, t, table, field⟩ := c
  cases k <;> cases table <;> cases field <;> rfl

section Items

variable {α : Type} {check : Check α} {f : α → Json}

/-- Items that each are read back are read back in their order. -/
theorem itemsFrom_map (xs : List α) (h : ∀ x ∈ xs, check (f x) = .ok x) (index : Nat) :
    itemsFrom check index (xs.map f) = .ok xs := by
  induction xs generalizing index with
  | nil => rfl
  | cons x xs ih =>
    rw [List.map_cons, itemsFrom, h x List.mem_cons_self,
      ih (fun y hy => h y (List.mem_cons_of_mem x hy))]
    rfl

/-- The first item that does not pass is complained of, under its index. -/
theorem itemsFrom_map_error {xs : List α} {k : Nat} {x : α} {issue : Issue}
    (hk : xs[k]? = some x) (hx : check (f x) = .error issue)
    (h : ∀ j < k, ∀ y, xs[j]? = some y → check (f y) = .ok y) (index : Nat) :
    itemsFrom check index (xs.map f) = .error (issue.under (Text.ofNat (index + k))) := by
  induction xs generalizing k index with
  | nil => exact nomatch hk
  | cons y xs ih =>
    rw [List.map_cons, itemsFrom]
    cases k with
    | zero =>
      obtain rfl := Option.some.inj hk
      rw [hx]
      rfl
    | succ k =>
      rw [h 0 (Nat.zero_lt_succ k) y rfl,
        ih hk fun j hj z hz => h (j + 1) (Nat.succ_lt_succ hj) z hz, Nat.add_right_comm]
      rfl

end Items

/-- The wire form of a snapshot passes but for its comments. -/
theorem snapshot_toJson (s : Snapshot Wording) :
    snapshot s.toJson = ((itemsFrom comment 0 (s.comments.map commentJson)).mapError
      (Issue.under "comments".toList)).map fun cs => ⟨s.order, cs⟩ := by
  show (((itemsFrom entry 0 (s.order.map entryJson)).mapError _) >>= _) = _
  rw [itemsFrom_map s.order (fun e _ => entry_entryJson e) 0]
  show (((itemsFrom comment 0 (s.comments.map commentJson)).mapError _) >>= _) = _
  cases itemsFrom comment 0 (s.comments.map commentJson) with
  | error issue => rfl
  | ok cs => rfl

end Payload

namespace Snapshot

/-- The wire form of a snapshot gives it back if its anchors go with their kinds. -/
theorem ofJson_toJson {s : Snapshot Wording}
    (h : ∀ c ∈ s.comments, Comment.AnchorRule c.kind c.anchor) : ofJson s.toJson = .ok s := by
  rw [ofJson, Payload.snapshot_toJson, Payload.itemsFrom_map]
  · rfl
  · intro c hc
    rw [Payload.comment_commentJson, if_pos (h c hc)]

/-- A snapshot with anchors by the rule is read back from its members. -/
theorem ofJson_toJson_texts {s : Snapshot}
    (h : ∀ c ∈ s.comments, Comment.AnchorRule c.kind c.anchor) :
    ofJson (s.map .text).toJson = .ok (s.map .text) := by
  refine ofJson_toJson fun c hc => ?_
  obtain ⟨c, hmem, rfl⟩ := List.mem_map.1 hc
  exact (Comment.anchorRule_map _ _ _).2 (h c hmem)

/-! ## Texts -/

/-- Reading what was written is checking the members that were written. -/
theorem ofText_toText_eq (i : Json.Indent) (s : Snapshot) :
    ofText ((s.map .text).toText i) =
      (Payload.snapshot (s.map .text).toJson).mapError .invalid := by
  rw [ofText, toText, s.plain_toJson.parse_render i]
  rfl

/-- The message for an issue ends with the way to it. -/
theorem isSuffix_message (complaint : Complaint) (key : Char) (keys index : Text) :
    " at '".toList ++ (key :: keys) ++ '.' :: index ++ ['\''] <:+
      Issue.message ⟨complaint, [key :: keys, index]⟩ := by
  refine ⟨complaint.message, ?_⟩
  show _ = complaint.message ++ (" at '".toList ++ (key :: (keys ++ _)) ++ ['\''])
  simp

/-- The text of a snapshot is ASCII. It is read back as the snapshot, unless the anchor of
    a comment does not go with its kind: then the error names the first such comment. -/
theorem ofText_toText (s : Snapshot) (width : Option Int) (path : Option Text) :
    Json.Ascii ((s.map .text).toText (.ofWidth width)) ∧
      match s.comments.findIdx? fun c => ¬ Comment.AnchorRule c.kind c.anchor with
      | none => ofText ((s.map .text).toText (.ofWidth width)) = .ok (s.map .text)
      | some k => ∃ e report, ofText ((s.map .text).toText (.ofWidth width)) = .error e ∧
          e.report path = some report ∧ report.area = .snapshot ∧
          " at 'comments.".toList ++ Text.ofNat k ++ ['\''] <:+ report.message := by
  refine ⟨s.plain_toJson.ascii_render _, ?_⟩
  have hread (c : Comment) : Payload.comment (commentJson (c.map .text)) =
      if Comment.AnchorRule c.kind c.anchor then .ok (c.map .text)
      else .error (.here (.anchor c.kind)) := by
    rw [Payload.comment_commentJson]
    exact if_congr (Comment.anchorRule_map _ _ _) rfl rfl
  rw [ofText_toText_eq, Payload.snapshot_toJson]
  split
  · next h =>
    -- All comments have anchors by the rule, and pass.
    rw [List.findIdx?_eq_none_iff] at h
    rw [Payload.itemsFrom_map]
    · rfl
    · intro c hc
      obtain ⟨c, hmem, rfl⟩ := List.mem_map.1 hc
      exact (hread c).trans (if_pos (Decidable.of_not_not (of_decide_eq_false (h c hmem))))
  · next k h =>
    -- The first comment without such an anchor fails, and those before it pass.
    obtain ⟨hk, hbad, hgood⟩ := List.findIdx?_eq_some_iff_getElem.1 h
    have hfails := (hread s.comments[k]).trans (if_neg (of_decide_eq_true hbad))
    have hpass : ∀ j < k, ∀ c, (s.map Wording.text).comments[j]? = some c →
        Payload.comment (commentJson c) = .ok c := by
      intro j hj c hc
      obtain ⟨c, hj', rfl⟩ := Option.map_eq_some_iff.1 ((List.getElem?_map ..).symm.trans hc)
      obtain ⟨hlt, rfl⟩ := List.getElem?_eq_some_iff.1 hj'
      exact (hread _).trans
        (if_pos (Decidable.of_not_not fun hnot => hgood j hj (decide_eq_true hnot)))
    have hat : (s.map Wording.text).comments[k]? = some (s.comments[k].map .text) :=
      (List.getElem?_map ..).trans (congrArg _ (List.getElem?_eq_getElem hk))
    rw [Payload.itemsFrom_map_error hat hfails hpass, Nat.zero_add]
    refine ⟨_, _, rfl, rfl, rfl, ?_⟩
    exact (isSuffix_message (.anchor _) 'c' "omments".toList (Text.ofNat k)).trans
      (List.suffix_append _ _)

end Snapshot

end DbmlRestore
