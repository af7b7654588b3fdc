import DbmlRestore.Proofs.Config

/-!
# Errors of the readers

Snapshots and settings files are written by hand or by other programs, so that anything can be in
them. What is wrong with one is told by an error of the library (`Reported`), with one exception: an
integer of more than 4300 digits, where a value is wanted, is refused before anything is known to be
wrong with it, and no error of the library tells so (`reported_iff_not_reachesLong`).
-/

namespace DbmlRestore

/-- The result is there, or it is told by an error of the library why there is none. -/
def Reported {ε α : Type} (area : Area) (report : ε → Option LibraryError) (x : Except ε α) :
    Prop :=
  FailsAs x fun e => ∃ r, report e = some r ∧ r.area = area

/-! ## Snapshots -/

namespace Snapshot

/-- The text of a snapshot is refused for its digits if a long integer stands where a value is
    wanted. -/
theorem ofText_eq_digits_iff {t : Text} {n : Nat} :
    ofText t = .error (.digits n) ↔ Json.ReachesLong t n := by
  rw [← Json.parse_eq_digits_iff, ofText]
  cases Json.parse t with
  | ok v =>
    rw [ofParsed, ofJson, mapError_eq_error_iff]
    exact iff_of_false (fun ⟨_, _, heq⟩ => nomatch heq) nofun
  | error e => cases e <;> simp [ofParsed]

/-- Any other error in the text of a snapshot is reported as one of the snapshot. -/
theorem failsAs_ofText (t : Text) (path : Option Text) : FailsAs (ofText t) fun e =>
    (∃ r, e.report path = some r ∧ r.area = .snapshot) ∨ ∃ n, e = .digits n := by
  rw [ofText]
  cases Json.parse t with
  | ok v => exact failsAs_mapError.2 fun _ _ => .inl ⟨_, rfl, rfl⟩
  | error e =>
    cases e with
    | notJson => exact failsAs_error (.inl ⟨_, rfl, rfl⟩)
    | digits => exact failsAs_error (.inr ⟨_, rfl⟩)

/-- A snapshot is read, or it is told why not, if no long integer is where a value is wanted. -/
theorem reported_ofText_iff (t : Text) (path : Option Text) :
    Reported .snapshot (·.report path) (ofText t) ↔ ¬ ∃ n, Json.ReachesLong t n := by
  constructor
  · rintro h ⟨n, hn⟩
    obtain ⟨r, hr, -⟩ := h _ (ofText_eq_digits_iff.2 hn)
    cases hr
  · intro h e he
    rcases failsAs_ofText t path e he with hr | ⟨n, rfl⟩
    · exact hr
    · exact absurd ⟨n, ofText_eq_digits_iff.1 he⟩ h

end Snapshot

/-! ## Settings -/

namespace Config

/-- Each error of the library about the settings is reported as one of them. -/
theorem InLibrary.exists_report {f : ConfigFault} (h : InLibrary f) (path : Path) :
    ∃ r, f.report path = some r ∧ r.area = .config := by
  rw [ConfigFault.report, show f.hostType? = none from h]
  exact ⟨_, rfl, rfl⟩

/-- Settings are read, or it is told why not, if no long integer is where a value is wanted. -/
theorem reported_ofContent_iff {root path : Path} {content : Charset.Bytes}
    (hpath : path.suffix ≠ ".toml".toList) :
    Reported .config (fun (f, p) => f.report p)
      ((ofContent root path content).mapError (·, path)) ↔ ¬ ∃ n, ReachesLong content n := by
  rw [Reported, failsAs_mapError]
  constructor
  · rintro h ⟨n, hn⟩
    obtain ⟨r, hr, -⟩ := h _ ((ofContent_eq_digits_iff hpath).2 hn)
    cases hr
  · intro h f hf
    rcases failsAs_ofContent hpath f hf with hin | ⟨n, rfl⟩
    · exact hin.exists_report path
    · exact absurd ⟨n, (ofContent_eq_digits_iff hpath).1 hf⟩ h

end Config

/-! ## Both -/

/-- What is wrong with a snapshot or with the settings of a workspace is told by an error of the
    library, unless there is an integer with too many digits where a value is wanted. -/
theorem reported_iff_not_reachesLong (t : Text) (file : Option Text) (w : World) (cwd root : Path)
    (content : Charset.Bytes) :
    ((Reported .snapshot (·.report file) (Snapshot.ofText t) ↔ ¬ ∃ n, Json.ReachesLong t n) ∧
      ∀ n, Snapshot.ofText t = .error (.digits n) ↔ Json.ReachesLong t n) ∧
    (Config.HasJson w.tree cwd root content →
      let path := (Path.resolve cwd root).child ".dbmlkeeprc".toList
      ∃ x, w.Yields (Config.load cwd root none : On .sound _) x w.tree ∧
        (Reported .config (fun (f, p) => f.report p) x ↔ ¬ ∃ n, Config.ReachesLong content n) ∧
        ∀ n, x = .error (.digits n, path) ↔ Config.ReachesLong content n) := by
  refine ⟨⟨Snapshot.reported_ofText_iff t file, fun n => Snapshot.ofText_eq_digits_iff⟩, ?_⟩
  intro h path
  have hpath := Config.suffix_json (Path.resolve cwd root)
  refine ⟨_, h.load_yields, Config.reported_ofContent_iff hpath, fun n => ?_⟩
  rw [mapError_eq_error_iff, ← Config.ofContent_eq_digits_iff hpath]
  constructor
  · rintro ⟨f, hf, heq⟩
    rw [← (Prod.mk.inj heq).1, hf]
  · exact fun hf => ⟨_, hf, rfl⟩

/-- The settings file holds a list, so that it is told that there is no object. -/
theorem reported_iff_not_reachesLong_list :
    let content := Charset.Utf8.encode "[1]".toList
    let w : World := {
      tree := ⟨[(["w".toList], .directory), (["w".toList, ".dbmlkeeprc".toList], .file content)]⟩
      directory := ⟨.slash, ["w".toList]⟩ }
    let path := w.directory.child ".dbmlkeeprc".toList
    Config.HasJson w.tree w.directory w.directory content ∧
      ∃ x, w.Yields (Config.load w.directory w.directory none : On .sound _) x w.tree ∧
        (Reported .config (fun (f, p) => f.report p) x ↔ ¬ ∃ n, Config.ReachesLong content n) ∧
        ∀ n, x = .error (.digits n, path) ↔ Config.ReachesLong content n := by
  intro content w path
  have h : Config.HasJson w.tree w.directory w.directory content := ⟨rfl, by decide, rfl⟩
  exact ⟨h, (reported_iff_not_reachesLong [] none w w.directory w.directory content).2 h⟩

/-- A text of 4301 ones is an integer that is too long, and no error of the library tells so. -/
theorem not_reported_ones :
    ¬ Reported .snapshot (·.report none) (Snapshot.ofText (List.replicate 4301 '1')) := by
  have hlong : Json.IsLong [] (List.replicate 4301 '1') [] := {
    signed := .inl rfl
    decimal := fun c hc => by rw [List.eq_of_mem_replicate hc]; rfl
    first := by rw [List.head?_replicate]; decide
    long := by rw [List.length_replicate]; decide
    ends := Json.firstIs_nil
    noFraction := rfl
    noExponent := rfl }
  rw [Snapshot.reported_ofText_iff, not_not]
  exact ⟨4301, [], [], _, [], by rw [List.append_nil]; rfl, rfl, hlong, List.length_replicate⟩

end DbmlRestore
