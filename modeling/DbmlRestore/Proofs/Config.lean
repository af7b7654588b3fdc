import DbmlRestore.Config
import DbmlRestore.Proofs.Json.LongIntegers
import DbmlRestore.Proofs.World

/-!
# Settings

The settings file in JSON of a workspace is found if there is none in TOML, and its content is read
(`Config.HasJson.load_yields`). Each step of reading fails with an error of the library, if it fails
(`FailsAs`), but for the integers that are not read: the integers of a JSON text that is read are
short enough to be shown (`Config.failsAs_defaultsOf`).
-/

namespace DbmlRestore

namespace Config

/-! ## Finding -/

section Finding

variable {w : World} {p : Path} {ps : List Path}

theorem firstThere_cons_yields {x : Except SystemError (Option Path)}
    (hp : w.tree.at? p = .ok none) (hps : ∀ output reports,
      World.Yields { w with output := output, reports := reports }
        (firstThere ps : On .sound _) x w.tree) :
    w.Yields (firstThere (p :: ps) : On .sound _) x w.tree := by
  have hthere := w.isThere_yields p
  rw [hp] at hthere
  exact .bind hthere hps

/-- The first file of settings that is there is the one that is found. -/
theorem firstThere_yields_some {x : Entry} (hp : w.tree.at? p = .ok (some x)) :
    w.Yields (firstThere (p :: ps) : On .sound _) (.ok (some p)) w.tree := by
  have hthere := w.isThere_yields p
  rw [hp] at hthere
  exact .bind hthere fun _ _ => .pure _ _

/-- No settings file is found where there is none. -/
theorem firstThere_yields_none (h : ∀ p ∈ ps, w.tree.at? p = .ok none) :
    w.Yields (firstThere ps : On .sound _) (.ok none) w.tree := by
  induction ps generalizing w with
  | nil => exact .pure _ _
  | cons p ps ih =>
    refine firstThere_cons_yields (h p List.mem_cons_self) fun _ _ => ?_
    exact ih fun q hq => h q (List.mem_cons_of_mem p hq)

/-- Looking for a settings file leaves the files as they are. -/
theorem firstThere_reads (sys : System) (ps : List Path) :
    World.Reads (firstThere ps : On sys _) fun _ => True := by
  induction ps with
  | nil => exact .pure trivial
  | cons p ps ih =>
    refine (World.isThere_reads sys p).bind fun r _ => ?_
    split
    · exact .pure trivial
    · exact .pure trivial
    · exact ih

/-- Finding and reading the settings leaves the files as they are. -/
theorem load_reads (sys : System) (cwd root : Path) (asked : Option Path) :
    World.Reads (load cwd root asked : On sys _) fun _ => True := by
  rw [load]
  split
  · exact .pure trivial
  · refine (firstThere_reads sys _).bind fun r _ => ?_
    split
    · exact .pure trivial
    · exact (World.read_reads sys _).bind fun r _ => by split <;> exact .pure trivial
    · split
      · exact .pure trivial
      · exact .pure trivial

/-- Without a settings file the settings are the default ones. -/
theorem load_yields (hnull : w.directory.hasNull = false)
    (hdir : Path.resolve w.directory w.directory = w.directory)
    (h : ∀ name ∈ fileNames, w.tree.at? (w.directory.child name) = .ok none) :
    w.Yields (load w.directory w.directory none : On .sound _) (.ok { root := w.directory })
      w.tree := by
  rw [load, hnull, hdir, if_neg Bool.false_ne_true]
  refine .bind (firstThere_yields_none fun p hp => ?_) fun _ _ => .pure _ _
  obtain ⟨name, hname, rfl⟩ := List.mem_map.1 hp
  exact h name hname

/-- The workspace `root`, as it is seen from the directory `cwd`, has a settings file in JSON with
    the content, and none in TOML. -/
structure HasJson (t : FileTree) (cwd root : Path) (content : Charset.Bytes) : Prop where
  null : root.hasNull = false
  toml : t.at? ((Path.resolve cwd root).child "dbmlkeep.toml".toList) = .ok none
  json : t.read ((Path.resolve cwd root).child ".dbmlkeeprc".toList) = .ok content

/-- It is found and read. -/
theorem HasJson.load_yields {cwd root : Path} {content : Charset.Bytes}
    (h : HasJson w.tree cwd root content) :
    let path := (Path.resolve cwd root).child ".dbmlkeeprc".toList
    w.Yields (load cwd root none : On .sound _)
      ((ofContent (Path.resolve cwd root) path content).mapError (·, path)) w.tree := by
  intro path
  have hlocate : w.Yields (locate (Path.resolve cwd root) none : On .sound _) (.ok (some path))
      w.tree :=
    firstThere_cons_yields h.toml fun _ _ => firstThere_yields_some (FileTree.at?_of_read h.json)
  rw [load, h.null, if_neg Bool.false_ne_true]
  refine .bind hlocate fun output reports => ?_
  have hread := World.read_yields { w with output := output, reports := reports } path
  rw [show FileTree.read _ path = _ from h.json] at hread
  exact .bind hread fun _ _ => .pure _ _

theorem suffix_json (p : Path) : (p.child ".dbmlkeeprc".toList).suffix ≠ ".toml".toList := by
  have hname : (p.child ".dbmlkeeprc".toList).name = ".dbmlkeeprc".toList := by
    rw [Path.name, Path.child, List.getLast?_concat]
    rfl
  rw [Path.suffix, hname]
  decide

end Finding

/-! ## Reading -/

/-- The fault is told by an error of the library. -/
def InLibrary (f : ConfigFault) : Prop := f.hostType? = none

section Reading

variable {ms : Value.Members}

/-- Where no value has an integer that is too long, the one under a key has none. -/
theorem isTooLong_of_find? {key : Text} {v : Value} (hms : Value.anyMemberTooLong ms = false)
    (h : ms.find? key = some v) : v.isTooLong = false := by
  obtain ⟨m, hm, rfl⟩ := Option.map_eq_some_iff.1 h
  have hmem := List.mem_of_find?_eq_some hm
  clear h hm
  induction ms with
  | nil => exact nomatch hmem
  | cons m' ms ih =>
    rw [Value.anyMemberTooLong, Bool.or_eq_false_iff] at hms
    rcases List.mem_cons.1 hmem with rfl | hmem
    · obtain ⟨k, v⟩ := m
      exact hms.1
    · exact ih hms.2 hmem

/-- A value without an integer that is too long has a wording. -/
theorem failsAs_wordingOf {v : Value} (h : v.isTooLong = false) :
    FailsAs (wordingOf v) InLibrary := by
  rw [wordingOf, h]
  exact failsAs_ok

/-- A setting can only fail in the ways of the library. -/
theorem failsAs_settingOf (hms : Value.anyMemberTooLong ms = false) (key : String)
    (default : Wording) : FailsAs (settingOf ms key default) InLibrary := by
  rw [settingOf]
  split
  · next v hv =>
    split
    · exact failsAs_wordingOf (isTooLong_of_find? hms hv)
    · exact failsAs_ok
  · exact failsAs_ok

theorem failsAs_mapM_wordingOf {vs : List Value} (h : Value.anyTooLong vs = false) :
    FailsAs (vs.mapM wordingOf) InLibrary := by
  induction vs with
  | nil => exact failsAs_ok
  | cons v vs ih =>
    rw [Value.anyTooLong, Bool.or_eq_false_iff] at h
    rw [List.mapM_cons]
    exact (failsAs_wordingOf h.1).bind fun _ _ => (ih h.2).bind fun _ _ => failsAs_ok

theorem failsAs_suffixesOf (hms : Value.anyMemberTooLong ms = false) :
    FailsAs (suffixesOf ms) InLibrary := by
  rw [suffixesOf]
  split
  · exact failsAs_ok
  · exact failsAs_ok
  · next vs hvs => exact failsAs_mapM_wordingOf (isTooLong_of_find? hms hvs)
  · exact failsAs_ok
  · exact failsAs_error rfl

/-- Where the file has no integer that is too long, the section of the settings has none. -/
theorem anyMemberTooLong_of_sectionOf {raw : Value.Members}
    (hraw : Value.anyMemberTooLong raw = false) (h : sectionOf raw = .ok ms) :
    Value.anyMemberTooLong ms = false := by
  rw [sectionOf] at h
  split at h
  · obtain rfl := Except.ok.inj h
    rfl
  · next ms' hms =>
    obtain rfl := Except.ok.inj h
    exact isTooLong_of_find? hraw hms
  · split at h
    · cases h
    · obtain rfl := Except.ok.inj h
      rfl

theorem failsAs_sectionOf (raw : Value.Members) : FailsAs (sectionOf raw) InLibrary := by
  rw [sectionOf]
  split
  · exact failsAs_ok
  · exact failsAs_ok
  · split
    · exact failsAs_error rfl
    · exact failsAs_ok

/-- The settings of a file with short integers only fail in the library, if they fail. -/
theorem failsAs_defaultsOf {raw : Value.Members} (hraw : Value.anyMemberTooLong raw = false) :
    FailsAs (defaultsOf raw) InLibrary := by
  refine (failsAs_sectionOf raw).bind fun ms hms => ?_
  have hshort := anyMemberTooLong_of_sectionOf hraw hms
  refine (failsAs_settingOf hshort _ _).bind fun _ _ => ?_
  refine (failsAs_suffixesOf hshort).bind fun _ _ => ?_
  refine (failsAs_settingOf hshort _ _).bind fun _ _ => ?_
  refine (failsAs_settingOf hshort _ _).bind fun _ _ => ?_
  dsimp only
  split
  · exact failsAs_ok
  · exact failsAs_error rfl

/-- What was read from a file has no integer that is too long to be shown. -/
theorem anyMemberTooLong_of_ofJson {t : Text} {raw : Value.Members} (h : ofJson t = .ok raw) :
    Value.anyMemberTooLong raw = false := by
  rw [ofJson] at h
  split at h
  · next ms hms =>
    obtain rfl := Except.ok.inj h
    exact Json.isTooLong_of_parse hms
  · cases h
  · cases h
  · cases h

theorem failsAs_ofJson (t : Text) :
    FailsAs (ofJson t) fun f => InLibrary f ∨ ∃ n, f = .digits n := by
  rw [ofJson]
  split
  · exact failsAs_ok
  · exact failsAs_error (.inl rfl)
  · exact failsAs_error (.inl rfl)
  · exact failsAs_error (.inr ⟨_, rfl⟩)

/-- A settings file in JSON is refused for its digits if a long integer stands where a value is
    wanted. -/
theorem ofJson_eq_digits_iff {t : Text} {n : Nat} :
    ofJson t = .error (.digits n) ↔ Json.ReachesLong (plainLineEnds t) n := by
  rw [← Json.parse_eq_digits_iff, ofJson]
  split
  · next h => simp [h]
  · next h => simp [h]
  · next h => simp [h]
  · next h => simp [h]

/-- The content of a settings file is a text with a long integer where a value is wanted. -/
def ReachesLong (content : Charset.Bytes) (n : Nat) : Prop :=
  ∃ t, Charset.decode .utf8 content = .ok t ∧ Json.ReachesLong (plainLineEnds t) n

variable {root path : Path} {content : Charset.Bytes} (hpath : path.suffix ≠ ".toml".toList)
include hpath

theorem ofContent_eq : ofContent root path content =
    ((Charset.decode .utf8 content).mapError fun f => .unreadable f.message) >>= fun t =>
      ofJson t >>= fun raw => defaultsOf raw >>= fun d => .ok ⟨root, d, some path, raw⟩ := by
  rw [ofContent]
  refine bind_congr fun t => ?_
  exact if_neg hpath

/-- Nothing in a settings file in JSON is told otherwise than by an error of the library, but for
    an integer that is not read, -/
theorem failsAs_ofContent : FailsAs (ofContent root path content)
    fun f => InLibrary f ∨ ∃ n, f = .digits n := by
  rw [ofContent_eq hpath]
  refine FailsAs.bind (failsAs_mapError.2 fun _ _ => .inl rfl) fun t _ => ?_
  refine (failsAs_ofJson t).bind fun raw hraw => ?_
  refine FailsAs.bind (fun f hf => .inl ?_) fun _ _ => failsAs_ok
  exact failsAs_defaultsOf (anyMemberTooLong_of_ofJson hraw) f hf

/-- which is there if the fault is that. -/
theorem ofContent_eq_digits_iff {n : Nat} :
    ofContent root path content = .error (.digits n) ↔ ReachesLong content n := by
  have hdefaults : ∀ {t raw}, ofJson t = .ok raw →
      (defaultsOf raw >>= fun d => .ok ⟨root, d, some path, raw⟩) ≠
        (.error (.digits n) : Except ConfigFault Config) := by
    intro t raw hraw h
    rcases bind_eq_error_iff.1 h with h | ⟨_, -, h⟩
    · exact nomatch failsAs_defaultsOf (anyMemberTooLong_of_ofJson hraw) _ h
    · cases h
  rw [ofContent_eq hpath, bind_eq_error_iff, mapError_eq_error_iff]
  constructor
  · rintro (⟨_, -, heq⟩ | ⟨t, ht, h⟩)
    · cases heq
    · rcases bind_eq_error_iff.1 h with h | ⟨raw, hraw, h⟩
      · exact ⟨t, mapError_eq_ok_iff.1 ht, ofJson_eq_digits_iff.1 h⟩
      · exact absurd h (hdefaults hraw)
  · rintro ⟨t, ht, h⟩
    exact .inr ⟨t, mapError_eq_ok_iff.2 ht,
      bind_eq_error_iff.2 (.inl (ofJson_eq_digits_iff.2 h))⟩

end Reading

end Config

end DbmlRestore
