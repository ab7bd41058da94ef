import SequenceXmi.Proofs.CommandLine.Runs
import SequenceXmi.Proofs.Text.Trimming

/-! # Where settings come from

The settings of a run have one source: the file that the arguments name, else the local file, else
that of the user, else there is no file and they are standard (`Chooses`). A file that is chosen is
the only one that counts. It is in order or the run fails; no other file stands in for it
(`Outcome`), and none can change the result: two worlds that are alike where a run looks give it the
same settings (`loadSettings_eq_of_alike`).

Main result: `loadSettings_strict`. -/

namespace SequenceXmi

open World (Keeps run_bind_ok run_bind_error run_lift run_throw run_pure)

/-! ## Worlds that are alike at a path -/

namespace World

variable {α β : Type} {act : ExceptT Failure (StateM World) α}
  {next : α → ExceptT Failure (StateM World) β} {w v : World} {path : Path}

/-- In two worlds the same things are found at a path, and to look there and to read there is
refused in both or in neither. -/
structure AlikeAt (w v : World) (path : Path) : Prop where
  node : (w.tree.at? path).toOption = (v.tree.at? path).toOption
  look : w.refuses (.look path) = v.refuses (.look path)
  read : w.refuses (.read path) = v.refuses (.read path)

/-- What comes after two steps that do the same does the same. -/
theorem run_bind_congr {act' : ExceptT Failure (StateM World) α} (h : w.run act = w.run act') :
    w.run (act >>= next) = w.run (act' >>= next) := by
  unfold run at h ⊢
  simp only [ExceptT.run_bind, StateT.run_bind, h]

/-- Steps that change nothing give the same in two worlds if each of them does. -/
theorem fst_run_bind_eq (hkeeps : Keeps act) (hact : (w.run act).1 = (v.run act).1)
    (hnext : ∀ a, (w.run act).1 = .ok a → (w.run (next a)).1 = (v.run (next a)).1) :
    (w.run (act >>= next)).1 = (v.run (act >>= next)).1 := by
  -- Each step that comes after starts in the world that the first one has kept.
  have hw := hkeeps.run_eq w
  have hv := hkeeps.run_eq v
  cases h : (w.run act).1 with
  | error f =>
    rw [h] at hw
    rw [← hact, h] at hv
    rw [run_bind_error hw, run_bind_error hv]
  | ok a =>
    rw [h] at hw
    rw [← hact, h] at hv
    rw [run_bind_ok hw, run_bind_ok hv]
    exact hnext a h

theorem isOk_at?_eq (h : w.AlikeAt v path) :
    (w.tree.at? path).isOk = (v.tree.at? path).isOk := by
  have hnode := h.node
  cases hw : w.tree.at? path <;> cases hv : v.tree.at? path <;>
    simp_all [Except.toOption, Except.isOk, Except.toBool]

theorem sees_eq (h : w.AlikeAt v path) : w.sees path = v.sees path := by
  rw [sees, sees, h.look, isOk_at?_eq h]

/-- A path where the same thing is found has the same content. -/
theorem content_eq_of_alike (h : w.AlikeAt v path) (hthere : (w.tree.at? path).isOk) :
    w.tree.content path = v.tree.content path := by
  have hnode := h.node
  unfold FileTree.content
  cases hw : w.tree.at? path with
  | error fault => simp [hw, Except.isOk, Except.toBool] at hthere
  | ok node =>
    cases hv : v.tree.at? path with
    | error fault => simp [hw, hv, Except.toOption] at hnode
    | ok other =>
      obtain rfl : node = other := by simpa [hw, hv, Except.toOption] using hnode
      rfl

/-- What reading the bytes of a file gives depends on the file and on what is refused. -/
theorem fst_run_readBytes (w : World) (path : Path) :
    (w.run (Host.attempt (Host.readBytes path))).1 =
      match w.refuses (.read path) with
      | some fault => .error (.file fault)
      | none => (w.tree.content path).mapError .file := by
  have hrun : (w.run (Host.attempt (Host.readBytes path))).1 =
      (operate (.read path) (fun t => (t.content path).map (·, t)) w).1.mapError
        Failure.file := rfl
  rw [hrun]
  unfold operate
  cases w.refuses (.read path) with
  | some fault => rfl
  | none => cases h : w.tree.content path <;> simp [h, Except.map, Except.mapError]

/-- Reading gives the same where the same thing is found. -/
theorem fst_run_readText_eq (h : w.AlikeAt v path) (hthere : (w.tree.at? path).isOk) :
    (w.run (Host.readText path)).1 = (v.run (Host.readText path)).1 := by
  unfold Host.readText
  refine fst_run_bind_eq (Keeps.readBytes path) ?_ fun bytes _ => ?_
  · rw [fst_run_readBytes, fst_run_readBytes, h.read, content_eq_of_alike h hthere]
  · cases String.fromUTF8? bytes <;> rfl

end World

namespace CommandLine

/-! ## Choosing a source -/

/-- Which source a run chooses, and at which paths it has looked when it does. -/
inductive Chooses (w : World) : Option Path → Option String → List Path → Option Path → Prop
  /-- The file that the arguments name, whether there is one or not. -/
  | explicit (user : Option Path) (path : String) :
    Chooses w user (some path) [⟨path⟩] (some ⟨path⟩)
  | ofLocal (user : Option Path) (there : w.sees localConfig) :
    Chooses w user none [localConfig] (some localConfig)
  | ofUser (path : Path) (absent : w.sees localConfig = false) (there : w.sees path) :
    Chooses w (some path) none [localConfig, path] (some path)
  /-- Neither file is there; where users have no file, there is none to be found. -/
  | standard (user : Option Path) (absent : w.sees localConfig = false)
      (absentUser : ∀ path ∈ user, w.sees path = false) :
    Chooses w user none (localConfig :: user.toList) none

/-- There is always a source, if only that of the standard settings. -/
theorem exists_chooses (w : World) (user : Option Path) (config : Option String) :
    ∃ looked source, Chooses w user config looked source := by
  cases config with
  | some path => exact ⟨_, _, .explicit user path⟩
  | none =>
    cases hlocal : w.sees localConfig with
    | true => exact ⟨_, _, .ofLocal user hlocal⟩
    | false =>
      cases user with
      | none => exact ⟨_, _, .standard none hlocal nofun⟩
      | some path =>
        cases huser : w.sees path with
        | true => exact ⟨_, _, .ofUser path hlocal huser⟩
        | false =>
          refine ⟨_, _, .standard (some path) hlocal fun other hother => ?_⟩
          obtain rfl := Option.some.inj hother
          exact huser

/-- There is one source only. -/
theorem Chooses.unique {w : World} {user : Option Path} {config : Option String}
    {looked looked' : List Path} {source source' : Option Path}
    (h : Chooses w user config looked source) (h' : Chooses w user config looked' source') :
    looked = looked' ∧ source = source' := by
  cases h <;> cases h' <;> simp_all

/-- Where a run looks the same things are found, and it chooses the same source. -/
theorem Chooses.of_alike {w v : World} {user : Option Path} {config : Option String}
    {looked : List Path} {source : Option Path} (h : Chooses w user config looked source)
    (halike : ∀ path ∈ looked, w.AlikeAt v path) : Chooses v user config looked source := by
  have hsees {path : Path} (hpath : path ∈ looked) : v.sees path = w.sees path :=
    (World.sees_eq (halike path hpath)).symm
  cases h with
  | explicit _ path => exact .explicit user path
  | ofLocal _ there => exact .ofLocal user (by rwa [hsees (by simp)])
  | ofUser path absent there =>
    exact .ofUser path (by rwa [hsees (by simp)]) (by rwa [hsees (by simp)])
  | standard _ absent absentUser =>
    refine .standard user (by rwa [hsees (by simp)]) fun path hpath => ?_
    rw [hsees (List.mem_cons_of_mem _ (Option.mem_toList.mpr hpath))]
    exact absentUser path hpath

/-! ## The settings of a source -/

/-- Something of the model name can be seen. -/
def ShowsName (s : Settings) : Prop := ∃ c ∈ s.modelName.toList, Text.isWhite c = false

/-- What comes of a source. A file gives its settings only if nothing is wrong with it. -/
inductive Outcome (reader : SettingsReader) (w : World) :
    Option Path → Except Failure Settings → Prop
  | standard : Outcome reader w none (.ok .standard)
  | missing {path : Path} (absent : w.sees path = false) :
    Outcome reader w (some path) (.error (.settings (.missingFile path.text)))
  /-- There is no file but a directory, or reading is refused, or the file holds no UTF-8 text. -/
  | unreadable {path : Path} (there : w.sees path) (unreadable : ∀ text, ¬ w.Reads path text)
      (fault : FileFault) :
    Outcome reader w (some path) (.error (.file fault))
  | malformed {path : Path} {text detail : String} (there : w.sees path)
      (reads : w.Reads path text) (malformed : reader text = .error detail) :
    Outcome reader w (some path) (.error (.settings (.malformed detail)))
  | blank {path : Path} {text : String} {settings : Settings} (there : w.sees path)
      (reads : w.Reads path text) (read : reader text = .ok settings)
      (blank : ¬ ShowsName settings) :
    Outcome reader w (some path) (.error (.settings .emptyModelName))
  | found {path : Path} {text : String} {settings : Settings} (there : w.sees path)
      (reads : w.Reads path text) (read : reader text = .ok settings)
      (shows : ShowsName settings) :
    Outcome reader w (some path) (.ok settings)

section

variable {reader : SettingsReader} {user : Option Path} {config : Option String} {w v : World}
  {looked : List Path} {source : Option Path}

/-- Settings are refused if all of the model name is white space. -/
theorem check_eq (s : Settings) :
    ShowsName s ∧ s.check = .ok () ∨ ¬ ShowsName s ∧ s.check = .error .emptyModelName := by
  have hblank : (Text.trim s.modelName.toList).isEmpty ↔ ¬ ShowsName s := by
    rw [List.isEmpty_iff, Text.trim_eq_nil_iff]
    simp [ShowsName]
  unfold Settings.check
  by_cases hshows : ShowsName s
  · exact .inl ⟨hshows, if_neg (mt hblank.mp (not_not_intro hshows))⟩
  · exact .inr ⟨hshows, if_pos (hblank.mpr hshows)⟩

/-- The settings of a source before they are checked. -/
def settingsOf (reader : SettingsReader) :
    Option Path → ExceptT Failure (StateM World) Settings
  | none => return .standard
  | some path => settingsIn reader path

/-- Finding the settings is reading the source that is chosen. -/
theorem run_findSettings (h : Chooses w user config looked source) :
    w.run (findSettings reader user config) = w.run (settingsOf reader source) := by
  have hthere {path : Path} {found : Bool} (hfound : w.sees path = found) :
      w.run (ExceptT.lift (Host.isThere path)) = (.ok found, w) := hfound ▸ run_lift rfl
  unfold findSettings
  cases h with
  | explicit _ path => rfl
  | ofLocal _ there =>
    dsimp only
    rw [run_bind_ok (hthere there)]
    rfl
  | ofUser path absent there =>
    dsimp only
    rw [run_bind_ok (hthere absent)]
    exact run_bind_ok (hthere there)
  | standard _ absent absentUser =>
    dsimp only
    rw [run_bind_ok (hthere absent)]
    cases user with
    | none => rfl
    | some path => exact run_bind_ok (hthere (absentUser path rfl))

/-- The settings of a source, checked. -/
def checkedSettings (reader : SettingsReader) (source : Option Path) :
    ExceptT Failure (StateM World) Settings := do
  let settings ← settingsOf reader source
  match settings.check with
  | .ok () => return settings
  | .error fault => throw (.settings fault)

theorem keeps_settingsOf (reader : SettingsReader) (source : Option Path) :
    Keeps (settingsOf reader source) := by
  cases source with
  | none => exact Keeps.pure _
  | some path => exact keeps_settingsIn reader path

/-- Loading the settings is reading the source that is chosen and checking what it gives. -/
theorem run_loadSettings (h : Chooses w user config looked source) :
    w.run (loadSettings reader user config) = w.run (checkedSettings reader source) :=
  World.run_bind_congr (run_findSettings h)

/-- A source comes to one of its outcomes. -/
theorem outcome_checkedSettings (reader : SettingsReader) (w : World) (source : Option Path) :
    Outcome reader w source (w.run (checkedSettings reader source)).1 := by
  unfold checkedSettings
  cases source with
  | none => exact .standard
  | some path =>
    show Outcome reader w (some path) (w.run (settingsIn reader path >>= _)).1
    have hthere : w.run (ExceptT.lift (Host.isThere path)) = (.ok (w.sees path), w) :=
      run_lift rfl
    unfold settingsIn
    rw [bind_assoc, run_bind_ok hthere]
    -- The file has to be there, then to be read, to hold settings, and to name the model.
    cases hfound : w.sees path with
    | false => exact .missing hfound
    | true =>
      simp only [Bool.not_true, Bool.false_eq_true, if_false]
      rcases w.run_readText path with ⟨fault, hread⟩ | ⟨text, hreads, hread⟩
      · rw [bind_assoc, run_bind_error hread]
        exact .unreadable hfound (World.not_reads_of_run_readText hread) fault
      · rw [bind_assoc, run_bind_ok hread]
        cases hsettings : reader text with
        | error detail => exact .malformed hfound hreads hsettings
        | ok settings =>
          show Outcome reader w (some path) (w.run (pure settings >>= _)).1
          rw [pure_bind]
          rcases check_eq settings with ⟨hshows, hcheck⟩ | ⟨hblank, hcheck⟩
          · simp only [hcheck]
            exact .found hfound hreads hsettings hshows
          · simp only [hcheck]
            exact .blank hfound hreads hsettings hblank

/-! ## Two worlds -/

theorem Chooses.mem_looked {path : Path} (h : Chooses w user config looked (some path)) :
    path ∈ looked := by
  cases h <;> simp

/-- A file gives the same settings in worlds that are alike where it is. -/
theorem settingsIn_eq_of_alike (reader : SettingsReader) {path : Path} (h : w.AlikeAt v path) :
    (w.run (settingsIn reader path)).1 = (v.run (settingsIn reader path)).1 := by
  unfold settingsIn
  refine World.fst_run_bind_eq (Keeps.isThere path) ?_ fun found hfound => ?_
  · exact congrArg Except.ok (World.sees_eq h)
  · obtain rfl : w.sees path = found := Except.ok.inj hfound
    cases hthere : w.sees path with
    | false => rfl
    | true =>
      simp only [Bool.not_true, Bool.false_eq_true, if_false]
      have hread := World.fst_run_readText_eq h (World.isOk_at?_of_sees hthere)
      refine World.fst_run_bind_eq (Keeps.readText path) hread ?_
      intro text _
      cases reader text <;> rfl

/-- Worlds that are alike where a run looks give it the same settings, whatever else is in them. -/
theorem loadSettings_eq_of_alike (reader : SettingsReader)
    (h : Chooses w user config looked source) (halike : ∀ path ∈ looked, w.AlikeAt v path) :
    (w.run (loadSettings reader user config)).1 = (v.run (loadSettings reader user config)).1 := by
  rw [run_loadSettings h, run_loadSettings (h.of_alike halike)]
  unfold checkedSettings
  refine World.fst_run_bind_eq (keeps_settingsOf reader source) ?_ fun settings _ => ?_
  · cases source with
    | none => rfl
    | some path =>
      -- The source that is chosen is the last one that the run looks at.
      exact settingsIn_eq_of_alike reader (halike path (h.mem_looked))
  · cases settings.check <;> rfl

end

/-! ## Strict lookup -/

/-- The settings of a run come from one source, and from nowhere else. -/
structure StrictLookup (reader : SettingsReader) (user : Option Path) (config : Option String)
    (w : World) : Prop where
  /-- One source is chosen, and the settings are what comes of it. -/
  source : ∃ looked source, Chooses w user config looked source ∧
    Outcome reader w source (w.run (loadSettings reader user config)).1
  /-- No other source is. -/
  only : ∀ looked source looked' source', Chooses w user config looked source →
    Chooses w user config looked' source' → looked = looked' ∧ source = source'
  /-- Nothing has an influence but what is found up to this source. -/
  independent : ∀ looked source v, Chooses w user config looked source →
    (∀ path ∈ looked, w.AlikeAt v path) →
    (v.run (loadSettings reader user config)).1 = (w.run (loadSettings reader user config)).1
  /-- A file that the arguments name and that is not seen there is reported by its path. -/
  missing : ∀ path, config = some path → w.sees ⟨path⟩ = false →
    ∃ f, (w.run (loadSettings reader user config)).1 = .error f ∧
      f = .settings (.missingFile path) ∧
      f.message = "Configuration error: Missing configuration file: " ++ path
  shows : ∀ settings, (w.run (loadSettings reader user config)).1 = .ok settings →
    ShowsName settings
  keeps : (w.run (loadSettings reader user config)).2 = w
  /-- A run without settings ends with the reason why there are none, whatever else it was to do,
  and leaves everything as it was. -/
  run_failed : ∀ f, (w.run (loadSettings reader user config)).1 = .error f →
    ∀ random args, args.config = config → w.run (run reader user random args) = (.error f, w)

section

variable {reader : SettingsReader} {user : Option Path} {config : Option String} {w : World}

theorem Outcome.showsName {source : Option Path} {settings : Settings}
    (h : Outcome reader w source (.ok settings)) : ShowsName settings := by
  cases h with
  | standard => exact ⟨'C', by decide, by decide⟩
  | found _ _ _ hshows => exact hshows

/-- Of a file that is not there nothing else comes. -/
theorem Outcome.eq_of_absent {path : Path} {result : Except Failure Settings}
    (h : Outcome reader w (some path) result) (habsent : w.sees path = false) :
    result = .error (.settings (.missingFile path.text)) := by
  cases h with
  | missing => rfl
  | unreadable there | malformed there | blank there | found there =>
    rw [there] at habsent
    cases habsent

/-- A run without settings does nothing. -/
theorem run_of_not_loaded {f : Failure} (random : IdSupply) {args : Arguments}
    (h : (w.run (loadSettings reader user args.config)).1 = .error f) :
    w.run (run reader user random args) = (.error f, w) := by
  have hsettings := (keeps_loadSettings reader user args.config).run_eq w
  rw [h] at hsettings
  unfold run
  exact run_bind_error hsettings

end

/-- Settings are looked up strictly in every world, for any reader of configuration files, for users
with a file of their own or without one, and with or without a file that the arguments name. -/
theorem loadSettings_strict (reader : SettingsReader) (user : Option Path)
    (config : Option String) (w : World) : StrictLookup reader user config w where
  source := by
    obtain ⟨looked, source, h⟩ := exists_chooses w user config
    refine ⟨looked, source, h, ?_⟩
    rw [run_loadSettings h]
    exact outcome_checkedSettings reader w source
  only _ _ _ _ h h' := h.unique h'
  independent _ _ _ h halike := (loadSettings_eq_of_alike reader h halike).symm
  missing := by
    rintro path rfl habsent
    rw [run_loadSettings (.explicit user path)]
    have houtcome := outcome_checkedSettings reader w (some ⟨path⟩)
    exact ⟨_, houtcome.eq_of_absent habsent, rfl, rfl⟩
  shows := by
    obtain ⟨looked, source, h⟩ := exists_chooses w user config
    intro settings hsettings
    rw [run_loadSettings h] at hsettings
    have houtcome := outcome_checkedSettings reader w source
    rw [hsettings] at houtcome
    exact houtcome.showsName
  keeps := keeps_loadSettings reader user config w
  run_failed := by
    rintro f hfailed random args rfl
    exact run_of_not_loaded random hfailed

/-- A local file that holds no settings is not passed over for that of the user. -/
example :
    ((World.ofTree ⟨[(["mermaid-xmi"], .directory), (["mermaid-xmi", "config.toml"], .file .empty),
        (["user.toml"], .file "fine".toUTF8)], []⟩).run
      (loadSettings (fun text => if text = "fine" then .ok .standard else .error "no settings")
        (some ⟨"user.toml"⟩) none)).1 = .error (.settings (.malformed "no settings")) := by
  decide +kernel

end CommandLine

end SequenceXmi
