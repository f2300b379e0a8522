import SchemaAudit.CommandLine.Run
import SchemaAudit.Proofs.Snapshot.Failures
import SchemaAudit.Proofs.Snapshot.Rearranging
import SchemaAudit.Proofs.Yaml.Library

/-!
# How the loading of a snapshot fails

The files of a snapshot are read first, and then what they hold together. A file fails by what it
is: it is absent, a directory, empty, no mapping, or the library of YAML gives no document for it.
The documents fail as every snapshot does, by a fault or by what stands in them. Which library reads
the texts is left open; of it no more is known than its laws (`Yaml.LawfulLibrary`).

- `Reaches`: loading comes to a file of the snapshot.
- `HoldsImpossible`: a file with bytes that are no text, or with a value that does not exist.
- `load_eq_error_iff`: what ends loading.
- `load_ends`: how loading ends. A value that does not exist is no fault of the snapshot but a
  failure of its own, and so is an integer without a text; a run of the command line answers the
  faults, and fails itself with the others.
-/

namespace SchemaAudit.Snapshot

/-! ### Documents together -/

/-- What several documents hold together is drawn from them. -/
theorem drawnFrom_combine (ds : List Doc) : (combine ds).DrawnFrom (.list ds) := by
  intro x hx h
  rcases Doc.occurs_map_iff.mp h with rfl | ⟨e, he, h⟩
  · exact absurd hx id
  obtain ⟨name, -, rfl⟩ := List.mem_map.mp he
  rcases h with h | h
  · exact Doc.drawnFrom_text name _ x hx h
  rcases Doc.occurs_list_iff.mp h with rfl | ⟨part, hpart, h⟩
  · exact absurd hx id
  obtain ⟨d, hd, hpart⟩ := List.mem_flatMap.mp hpart
  cases hparts : (d.get name).parts? with
  | none =>
    rw [hparts] at hpart
    exact absurd hpart List.not_mem_nil
  | some parts =>
    rw [hparts] at hpart
    have hdrawn := (Doc.drawnFrom_of_mem_parts hparts hpart).trans (d.drawnFrom_get name)
    exact .item hd (hdrawn x hx h)

theorem failsBy_checkSections (d : Doc) : FailsBy d (checkSections d) := by
  refine .bind (failsBy_requireKnown fun names => cause_of_silent rfl) fun _ _ => ?_
  exact .forM fun name _ => .bind (failsBy_readParts d _) fun _ _ => .ok ()

theorem failsBy_readDocuments (ds : List Doc) : FailsBy (.list ds) (readDocuments ds) := by
  refine .bind (.forM fun d hd => ?_) fun _ _ => ?_
  · exact (failsBy_checkSections d).mono (Doc.Occurs.item hd .here).drawnFrom
  · exact (failsBy_readDatabase rfl).mono (drawnFrom_combine ds)

/-! ### Files -/

/-- A file holds bytes that are no text, or a text that the library refuses for a value that does
not exist. -/
def HoldsImpossible [Yaml.Library] (t : FileTree) (p : Path) : Prop :=
  t.find? p = some (.file .undecodable) ∨
    ∃ s, t.find? p = some (.file (.text s)) ∧ Yaml.Library.read s = .error .impossible

/-- What is in a file, if it gives no document. -/
theorem read_eq_error [Yaml.Library] {content : FileContent} {fault : SnapshotFault} {f : Failure}
    (h : content.read (.snapshot fault) = .error f) :
    content = .undecodable ∧ f = .impossibleValue ∨
      ∃ s r, content = .text s ∧ Yaml.Library.read s = .error r ∧
        f = FileContent.failureOf (.snapshot fault) r := by
  cases content with
  | document d => cases h
  | undecodable => exact .inl ⟨rfl, (Except.error.inj h).symm⟩
  | text s =>
    obtain ⟨r, hr, hf⟩ := mapError_eq_error_iff.mp h
    exact .inr ⟨s, r, rfl, hr, hf.symm⟩

/-- Where a file gives no document, no mapping is taken from it. -/
theorem fileMapping_of_read_error [Yaml.Library] {t : FileTree} {p : Path} {content : FileContent}
    {f : Failure} (hfile : t.find? p = some (.file content))
    (hread : content.read (.snapshot (.invalidYaml p.text)) = .error f) :
    fileMapping t p = .error f := by
  unfold fileMapping
  rw [hfile]
  exact bind_eq_of_error hread

/-- A text that the library refuses fails as its fault says. -/
theorem fileMapping_of_fault [Yaml.Library] {t : FileTree} {p : Path} {s : String} {r : Yaml.Fault}
    (hfile : t.find? p = some (.file (.text s))) (hr : Yaml.Library.read s = .error r) :
    fileMapping t p = .error (FileContent.failureOf (.snapshot (.invalidYaml p.text)) r) :=
  fileMapping_of_read_error hfile (mapError_eq_error_iff.mpr ⟨r, hr, rfl⟩)

/-- Why no mapping can be taken from a file: for a fault of the snapshot, or for what its bytes or
its text are. -/
theorem fileMapping_eq_error [Yaml.Library] {t : FileTree} {p : Path} {f : Failure}
    (h : fileMapping t p = .error f) :
    (∃ fault, f = .snapshot fault) ∨ f = .isDirectory ∨
      (f = .impossibleValue ∧ HoldsImpossible t p) ∨
      ∃ s r, t.find? p = some (.file (.text s)) ∧ Yaml.Library.read s = .error r ∧
        f = FileContent.failureOf (.snapshot (.invalidYaml p.text)) r := by
  unfold fileMapping at h
  split at h
  · exact .inl ⟨_, (Except.error.inj h).symm⟩
  · exact .inr (.inl (Except.error.inj h).symm)
  · next content hfile =>
    cases hread : content.read (.snapshot (.invalidYaml p.text)) with
    | ok d =>
      -- a document that is there is refused for what it is, which is a fault
      rw [bind_eq_of_ok hread] at h
      unfold require at h
      split at h
      · rw [bind_eq_of_ok rfl] at h
        split at h
        · cases h
        · exact .inl ⟨_, (Except.error.inj h).symm⟩
      · exact .inl ⟨_, (Except.error.inj h).symm⟩
    | error g =>
      rw [bind_eq_of_error hread] at h
      obtain rfl := Except.error.inj h
      rcases read_eq_error hread with ⟨rfl, rfl⟩ | ⟨s, r, rfl, hr, rfl⟩
      · exact .inr (.inr (.inl ⟨rfl, .inl hfile⟩))
      · exact .inr (.inr (.inr ⟨s, r, hfile, hr, rfl⟩))

theorem fileMapping_eq_impossible_iff [Yaml.Library] {t : FileTree} {p : Path} :
    fileMapping t p = .error .impossibleValue ↔ HoldsImpossible t p := by
  constructor
  · intro h
    rcases fileMapping_eq_error h with ⟨fault, hf⟩ | hf | ⟨-, hp⟩ | ⟨s, r, hfile, hr, hf⟩
    · cases hf
    · cases hf
    · exact hp
    · cases r with
      | impossible => exact .inr ⟨s, hfile, hr⟩
      | _ => cases hf
  · rintro (hfile | ⟨s, hfile, hs⟩)
    · exact fileMapping_of_read_error hfile rfl
    · exact fileMapping_of_fault hfile hs

/-- Only a library that fails in a way of its own makes a file fail so. -/
theorem fileMapping_eq_wrongKind_iff [Yaml.Library] {t : FileTree} {p : Path} :
    fileMapping t p = .error .wrongKind ↔
      ∃ s, t.find? p = some (.file (.text s)) ∧ Yaml.Library.read s = .error .other := by
  constructor
  · intro h
    rcases fileMapping_eq_error h with ⟨fault, hf⟩ | hf | ⟨hf, -⟩ | ⟨s, r, hfile, hr, hf⟩
    · cases hf
    · cases hf
    · cases hf
    · cases r with
      | other => exact ⟨s, hfile, hr⟩
      | _ => cases hf
  · rintro ⟨s, hfile, hs⟩
    exact fileMapping_of_fault hfile hs

/-! ### Loading -/

/-- Loading comes to the file at the end of the path `q`: a mapping can be taken from every file of
the snapshot before it. -/
def Reaches [Yaml.Library] (t : FileTree) (p q : Path) : Prop :=
  ∃ before after, files? t p = some (before ++ q :: after) ∧
    ∀ b ∈ before, Accepted (fileMapping t b)

/-- Loading ends at a path with no files, at a file, or with the documents in all files. -/
theorem load_eq_error_iff [Yaml.Library] {t : FileTree} {p : Path} {f : Failure} :
    load t p = .error f ↔
      (files? t p = none ∧ f = .snapshot (.pathMissing p.text)) ∨
      (∃ q, Reaches t p q ∧ fileMapping t q = .error f) ∨
      ∃ ds, Holds t p ds ∧ readDocuments ds = .error f := by
  cases hfiles : files? t p with
  | none =>
    have hload : load t p = .error (.snapshot (.pathMissing p.text)) := by
      unfold load
      rw [hfiles]
    rw [hload]
    constructor
    · exact fun h => .inl ⟨rfl, (Except.error.inj h).symm⟩
    · rintro (⟨-, rfl⟩ | ⟨q, ⟨before, after, hsome, -⟩, -⟩ | ⟨ds, ⟨ps, hsome, -⟩, -⟩)
      · rfl
      · cases hfiles.symm.trans hsome
      · cases hfiles.symm.trans hsome
  | some ps =>
    have hload : load t p = (ps.mapM (fileMapping t) >>= readDocuments) := by
      unfold load
      rw [hfiles]
    rw [hload]
    constructor
    · intro h
      cases hdocs : ps.mapM (fileMapping t) with
      | ok ds =>
        rw [bind_eq_of_ok hdocs] at h
        exact .inr (.inr ⟨ds, ⟨ps, hfiles, hdocs⟩, h⟩)
      | error g =>
        rw [bind_eq_of_error hdocs] at h
        obtain rfl := Except.error.inj h
        obtain ⟨before, q, after, rfl, hbefore, hq⟩ := mapM_eq_error_iff.mp hdocs
        exact .inr (.inl ⟨q, ⟨before, after, hfiles, hbefore⟩, hq⟩)
    · rintro (⟨hnone, -⟩ | ⟨q, ⟨before, after, hsome, hbefore⟩, hq⟩ |
        ⟨ds, ⟨ps', hsome, hds⟩, hread⟩)
      · cases hnone
      · obtain rfl := Option.some.inj (hfiles.symm.trans hsome)
        exact bind_eq_of_error (mapM_eq_error_iff.mpr ⟨before, q, after, rfl, hbefore, hq⟩)
      · obtain rfl := Option.some.inj (hfiles.symm.trans hsome)
        rw [bind_eq_of_ok hds]
        exact hread

/-- A failure that no document gives comes from the first file that fails. -/
theorem load_eq_error_iff_file [Yaml.Library] {t : FileTree} {p : Path} {f : Failure}
    (hfault : ∀ fault, f ≠ .snapshot fault) (hcause : ∀ d, ¬ Cause d f) :
    load t p = .error f ↔ ∃ q, Reaches t p q ∧ fileMapping t q = .error f := by
  rw [load_eq_error_iff]
  constructor
  · rintro (⟨-, hf⟩ | hfile | ⟨ds, -, hds⟩)
    · exact absurd hf (hfault _)
    · exact hfile
    · exact absurd (failsBy_readDocuments ds f hds) (hcause _)
  · exact fun hfile => .inr (.inl hfile)

theorem load_eq_impossible_iff [Yaml.Library] {t : FileTree} {p : Path} :
    load t p = .error .impossibleValue ↔ ∃ q, Reaches t p q ∧ HoldsImpossible t q := by
  simp only [load_eq_error_iff_file (f := .impossibleValue) nofun fun _ => id,
    fileMapping_eq_impossible_iff]

theorem load_eq_wrongKind_iff [Yaml.Library] {t : FileTree} {p : Path} :
    load t p = .error .wrongKind ↔ ∃ q, Reaches t p q ∧
      ∃ s, t.find? q = some (.file (.text s)) ∧ Yaml.Library.read s = .error .other := by
  simp only [load_eq_error_iff_file (f := .wrongKind) nofun fun _ => id,
    fileMapping_eq_wrongKind_iff]

/-- What can end loading. -/
theorem load_failures [Yaml.Library] {t : FileTree} {p : Path} {f : Failure}
    (h : load t p = .error f) :
    (∃ fault, f = .snapshot fault) ∨ f = .wrongShape ∨ f = .notFinite ∨ f = .isDirectory ∨
      f = .impossibleValue ∨ f = .unwritable ∨ f = .wrongKind := by
  rcases load_eq_error_iff.mp h with ⟨-, rfl⟩ | ⟨q, -, hq⟩ | ⟨ds, -, hds⟩
  · exact .inl ⟨_, rfl⟩
  · rcases fileMapping_eq_error hq with hf | hf | ⟨hf, -⟩ | ⟨s, r, -, -, rfl⟩
    · exact .inl hf
    · exact .inr (.inr (.inr (.inl hf)))
    · exact .inr (.inr (.inr (.inr (.inl hf))))
    · cases r with
      | malformed => exact .inl ⟨_, rfl⟩
      | impossible => exact .inr (.inr (.inr (.inr (.inl rfl))))
      | tooLarge => exact .inr (.inr (.inl rfl))
      | other => exact .inr (.inr (.inr (.inr (.inr (.inr rfl)))))
  · have hcause := failsBy_readDocuments ds f hds
    cases f with
    | snapshot fault => exact .inl ⟨fault, rfl⟩
    | wrongShape => exact .inr (.inl rfl)
    | notFinite => exact .inr (.inr (.inl rfl))
    | unwritable => exact .inr (.inr (.inr (.inr (.inr (.inl rfl)))))
    | _ => exact hcause.elim

theorem load_eq_unwritable [Yaml.Library] {t : FileTree} {p : Path}
    (h : load t p = .error .unwritable) :
    ∃ ds, Holds t p ds ∧ ∃ d ∈ ds, ∃ n, Number.isWritable n = false ∧ Doc.Occurs (.int n) d := by
  rcases load_eq_error_iff.mp h with ⟨-, hf⟩ | ⟨q, -, hq⟩ | ⟨ds, hholds, hds⟩
  · cases hf
  · rcases fileMapping_eq_error hq with ⟨fault, hf⟩ | hf | ⟨hf, -⟩ | ⟨s, r, -, -, hf⟩
    · cases hf
    · cases hf
    · cases hf
    · cases r <;> cases hf
  · obtain ⟨n, hn, hoccurs⟩ := failsBy_readDocuments ds _ hds
    rcases Doc.occurs_list_iff.mp hoccurs with heq | ⟨d, hd, hoccurs⟩
    · cases heq
    · exact ⟨ds, hholds, d, hd, n, hn, hoccurs⟩

/-! ### Runs of the command line -/

/-- A run whose snapshot cannot be loaded is refused. -/
theorem runCommand_of_load_error [Yaml.Library] {a : CommandLine.Arguments}
    {env : Settings.Environment} {t : FileTree} {settings : Settings} {f : Failure}
    (hsettings : Settings.gather t env a.explicit = .ok settings)
    (hload : load t settings.schemaPath = .error f) :
    ∃ notes, CommandLine.runCommand a env t = CommandLine.refuse t notes f := by
  unfold CommandLine.runCommand
  cases a.command with
  | lint =>
    dsimp only [CommandLine.lint]
    rw [hsettings]
    dsimp only
    rw [hload]
    exact ⟨_, rfl⟩
  | dbml =>
    dsimp only [CommandLine.dbml]
    rw [hsettings]
    dsimp only
    rw [hload]
    exact ⟨_, rfl⟩

/-- How the loading of a snapshot ends, and what a run of the command line makes of it. -/
structure LoadEnds [Yaml.Library] (t : FileTree) (p : Path) : Prop where
  /-- Only faults of the snapshot, and few other failures, end it without a database. -/
  failures : ∀ f, load t p = .error f →
    (∃ fault, f = .snapshot fault) ∨ f = .wrongShape ∨ f = .notFinite ∨ f = .isDirectory ∨
      f = .impossibleValue ∨ f = .unwritable ∨ f = .wrongKind
  /-- Bytes that are no text, and a value that does not exist, end it at the first file from which
  no mapping can be taken. -/
  impossible : load t p = .error .impossibleValue ↔ ∃ q, Reaches t p q ∧ HoldsImpossible t q
  /-- So ends every snapshot whose first such file writes a time that does not exist. -/
  time : ∀ q s, Reaches t p q → t.find? q = some (.file (.text s)) →
    Yaml.WritesImpossibleTime s → load t p = .error .impossibleValue
  /-- A text that does not follow the grammar is a fault of the snapshot. -/
  grammar : ∀ q s, Reaches t p q → t.find? q = some (.file (.text s)) →
    ¬ Yaml.Library.IsYaml s → load t p = .error (.snapshot (.invalidYaml q.text))
  /-- What the library fails to read in a way of its own ends loading in that way. -/
  other : load t p = .error .wrongKind ↔ ∃ q, Reaches t p q ∧
    ∃ s, t.find? q = some (.file (.text s)) ∧ Yaml.Library.read s = .error .other
  /-- An integer without a text ends it only where the files hold one. -/
  unwritable : load t p = .error .unwritable → ∃ ds, Holds t p ds ∧ ∃ d ∈ ds,
    ∃ n, Number.isWritable n = false ∧ Doc.Occurs (.int n) d
  /-- A run ends with status 1 for a fault of the snapshot, and fails with every other failure. -/
  run : ∀ a env settings f, Settings.gather t env a.explicit = .ok settings →
    settings.schemaPath = p → load t p = .error f →
    (∃ fault outcome, f = .snapshot fault ∧ CommandLine.runCommand a env t = .ok outcome ∧
      outcome.status = 1 ∧ outcome.refusal = some f) ∨
    ((∀ fault, f ≠ .snapshot fault) ∧ CommandLine.runCommand a env t = .error f)

/-- The text of a snapshot: a table of harvests, with the given day as a default. -/
def harvestText (day : String) : String :=
  "tables:\n- table: harvest\n  columns:\n  - name: day\n    type: date\n    default: " ++ day

/-- The snapshot in one file. -/
def harvest (day : String) : FileTree :=
  ⟨[({ names := ["harvest.yaml"] }, .file (.text (harvestText day)))]⟩

/-- The arguments of a run that looks at the snapshot at the end of a path. -/
def lintAt (path : String) : CommandLine.Arguments :=
  { command := .lint, schemaPath := some path }

theorem gather_lintAt [Yaml.Library] (t : FileTree) (path : String) :
    Settings.gather t [] (lintAt path).explicit = .ok { schemaPath := .ofText path } := rfl

theorem reaches_harvest [Yaml.Library] (day : String) :
    Reaches (harvest day) (.ofText "harvest.yaml") (.ofText "harvest.yaml") :=
  ⟨[], [], rfl, nofun⟩

/-- A snapshot in two files, the second one with the given content. -/
def lateHarvest (late : FileContent) : FileTree :=
  ⟨[({ names := ["harvest"] }, .directory),
    ({ names := ["harvest", "a.yaml"] }, .file (.document (staff [badge, person]))),
    ({ names := ["harvest", "b.yaml"] }, .file late)]⟩

/-- The path of the second file. -/
def lateFile : Path :=
  ⟨"", ["harvest", "b.yaml"]⟩

end SchemaAudit.Snapshot
