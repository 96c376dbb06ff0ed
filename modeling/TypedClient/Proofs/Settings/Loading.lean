import TypedClient.Proofs.Command.Refusal
import TypedClient.Proofs.Failure.Stops
import TypedClient.Proofs.Path.Resolution

/-!
# Loaded configurations

A configuration is loaded as a whole or not at all: if each entry can be used, there are the settings of
each of them in order, and otherwise the first that cannot is what stops the loading. Locations are seen
from the directory of the configuration, so where a command runs does not matter.
-/
namespace TypedClient

/-- Where a file that an absolute path leads to is does not depend on the working directory. -/
theorem Files.read_of_isAbsolute {path : Path} (absolute : path.isAbsolute = true) (fs : Files)
    (here there : Path) : fs.read here path = fs.read there path := by
  have same : fs.locate here path = fs.locate there path := by
    simp [Files.locate, Path.append, absolute]
  rw [Files.read, Files.read, Files.readFile, Files.readFile, same]

namespace Settings

/-- There can be a file at the location: the bytes of each segment of its path, without a null, make a
name. -/
def IsPlaceable (location : String) : Prop :=
  ∀ s ∈ (Path.ofText location).segments, Path.nameRefusal? s = none

variable {g : Graph} {base : Path} {origin : String} {e : Scalar × Value}

theorem located_of_placeable {location : String} (placeable : IsPlaceable location) :
    located base location = .ok ((Path.ofText location).resolve base) := by
  simp only [located, List.findSome?_eq_none_iff.mpr placeable]

/-- The fault is one of a single value: a number with too many digits for a text, or a location that no
file can have. -/
def OfValue (d : Malformed) : Prop := d ∈ [.numberTooLong, .unstorable, .malformedPath]

/-- Whatever stops the step is a fault of a single value. -/
abbrev StopsAtValue {α : Type} (r : Result α) : Prop :=
  StopsBy (fun s => ∃ d, OfValue d ∧ s = .malformed d) r

theorem ofValue_of_nameRefusal? {s : String} {d : Malformed} (refused : Path.nameRefusal? s = some d) :
    OfValue d := by
  unfold Path.nameRefusal? at refused
  split at refused
  · cases refused
    simp [OfValue]
  · split at refused <;> cases refused
    simp [OfValue]

theorem located_of_not_placeable {location : String} (refused : ¬IsPlaceable location) :
    ∃ d, OfValue d ∧ located base location = malformed d := by
  cases found : (Path.ofText location).segments.findSome? Path.nameRefusal? with
  | none => exact absurd (List.findSome?_eq_none_iff.mp found) refused
  | some d =>
    obtain ⟨s, -, here⟩ := List.exists_of_findSome?_eq_some found
    exact ⟨d, ofValue_of_nameRefusal? here, by simp only [located, found]⟩

theorem placeable_of_located {location : String} {path : Path}
    (success : located base location = .ok path) : IsPlaceable location := by
  by_contra refused
  obtain ⟨d, -, failed⟩ := @located_of_not_placeable base location refused
  cases failed.symm.trans success

theorem stopsAtValue_textOf (g : Graph) (v : Value) : StopsAtValue (g.textOf v) := by
  unfold Graph.textOf
  split
  · exact .ok _
  · exact .stop ⟨.numberTooLong, by simp [OfValue], rfl⟩

theorem stopsAtValue_located (base : Path) (location : String) :
    StopsAtValue (located base location) := by
  by_cases placeable : IsPlaceable location
  · rw [located_of_placeable placeable]
    exact .ok _
  · obtain ⟨d, value, failed⟩ := @located_of_not_placeable base location placeable
    rw [failed]
    exact .stop ⟨d, value, rfl⟩

/-! ### One entry -/

/-- The entry has a name and is a mapping that says what a client is generated from and where it goes.
What it says has a text, and the locations that are not remote can be those of files. -/
structure Usable (g : Graph) (e : Scalar × Value) : Prop where
  named : e.1.hasText = true
  mapping : g.isMapping e.2 = true
  spec : ∃ v, firstStated g (g.fields e.2) ["spec", "file", "url"] = some v ∧ g.hasText v = true ∧
    (Location.isRemote (g.display v) = true ∨ IsPlaceable (g.display v))
  output : ∃ v, firstStated g (g.fields e.2) ["output"] = some v ∧ g.hasText v = true ∧
    IsPlaceable (g.display v)
  transformer : ∀ v, firstStated g (g.fields e.2) ["transformer"] = some v →
    g.hasText v = true ∧ IsPlaceable (g.display v)

/-- The entry has a name, but is no mapping or lacks what it has to say. -/
inductive Incomplete (g : Graph) (e : Scalar × Value) : ConfigFault → Prop
  | notMapping (named : e.1.hasText = true) (other : g.isMapping e.2 = false) :
    Incomplete g e (.entryNotMapping e.1.display)
  | missingSpec (named : e.1.hasText = true) (mapping : g.isMapping e.2 = true)
    (none : firstStated g (g.fields e.2) ["spec", "file", "url"] = none) :
    Incomplete g e (.missingSpec e.1.display)
  | missingOutput (named : e.1.hasText = true) (mapping : g.isMapping e.2 = true)
    (stated : (firstStated g (g.fields e.2) ["spec", "file", "url"]).isSome = true)
    (none : firstStated g (g.fields e.2) ["output"] = none) :
    Incomplete g e (.missingOutput e.1.display)

/-- The text of the first of several fields that says something. -/
def textAt (g : Graph) (entry : Value) (names : List String) : Option String :=
  (firstStated g (g.fields entry) names).map g.display

/-- The settings that an entry stands for, seen from a directory. -/
def standFor (g : Graph) (base : Path) (e : Scalar × Value) : Settings :=
  let spec := (textAt g e.2 ["spec", "file", "url"]).getD ""
  { name := e.1.display
    spec := if Location.isRemote spec then spec else ((Path.ofText spec).resolve base).text
    output := (Path.ofText ((textAt g e.2 ["output"]).getD "")).resolve base
    validate := validates g (g.fields e.2)
    transformer := (textAt g e.2 ["transformer"]).map fun t => (Path.ofText t).resolve base }

/-- The settings are those of an entry seen from a directory. A remote specification stays as it is; every
other location is resolved, to a path that begins at the root and has no way back. -/
structure SeenFrom (g : Graph) (base : Path) (e : Scalar × Value) (s : Settings) : Prop where
  name : s.name = e.1.display
  spec : ∃ t, textAt g e.2 ["spec", "file", "url"] = some t ∧
    if Location.isRemote t then s.spec = t
    else s.spec = ((Path.ofText t).resolve base).text ∧ (Path.ofText s.spec).IsClean ∧
      (Path.ofText s.spec).text = s.spec
  output : ∃ t, textAt g e.2 ["output"] = some t ∧ s.output = (Path.ofText t).resolve base ∧
    s.output.IsClean
  transformer : s.transformer = (textAt g e.2 ["transformer"]).map fun t =>
    (Path.ofText t).resolve base
  transformerClean : ∀ p, s.transformer = some p → p.IsClean
  validate : s.validate = validates g (g.fields e.2)

/-- The settings of an entry under its name. -/
def ofNamed (g : Graph) (origin : String) (base : Path) (e : Scalar × Value) : Result Settings := do
  ofEntry g origin base (← e.1.textOf) e.2

/-- What is left of the settings of an entry that says what a client is generated from and where it
goes. -/
def settle (g : Graph) (base : Path) (e : Scalar × Value) (spec output : Value) : Result Settings := do
  return {
    name := e.1.display
    spec := ← locatedSpec base (← g.textOf spec)
    output := ← located base (← g.textOf output)
    validate := validates g (g.fields e.2)
    transformer := ← (firstStated g (g.fields e.2) ["transformer"]).mapM fun v => do
      located base (← g.textOf v) }

theorem ofNamed_of_named (named : e.1.hasText = true) :
    ofNamed g origin base e = ofEntry g origin base e.1.display e.2 := by
  rw [ofNamed, Scalar.textOf, if_pos named]
  rfl

theorem ofNamed_of_stated {spec output : Value} (named : e.1.hasText = true)
    (mapping : g.isMapping e.2 = true)
    (statedSpec : firstStated g (g.fields e.2) ["spec", "file", "url"] = some spec)
    (statedOutput : firstStated g (g.fields e.2) ["output"] = some output) :
    ofNamed g origin base e = settle g base e spec output := by
  obtain ⟨es, entries⟩ := Option.isSome_iff_exists.mp mapping
  rw [Graph.fields_of_entries? entries] at statedSpec statedOutput
  rw [ofNamed_of_named named, settle, Graph.fields_of_entries? entries]
  simp only [ofEntry, entries, statedSpec, statedOutput]

theorem ofNamed_of_incomplete {fault : ConfigFault} (incomplete : Incomplete g e fault) :
    ofNamed g origin base e = fail (.config fault (some origin)) := by
  cases incomplete with
  | notMapping named other =>
    rw [← Graph.entries?_eq_none_iff] at other
    rw [ofNamed_of_named named]
    simp only [ofEntry, other]
  | missingSpec named mapping none =>
    obtain ⟨es, entries⟩ := Option.isSome_iff_exists.mp mapping
    rw [Graph.fields_of_entries? entries] at none
    rw [ofNamed_of_named named]
    simp only [ofEntry, entries, none]
  | missingOutput named mapping stated none =>
    obtain ⟨es, entries⟩ := Option.isSome_iff_exists.mp mapping
    obtain ⟨spec, stated⟩ := Option.isSome_iff_exists.mp stated
    rw [Graph.fields_of_entries? entries] at stated none
    rw [ofNamed_of_named named]
    simp only [ofEntry, entries, stated, none]

theorem located_textOf {v : Value} (text : g.hasText v = true)
    (placeable : IsPlaceable (g.display v)) :
    (do located base (← g.textOf v)) = .ok ((Path.ofText (g.display v)).resolve base) := by
  rw [Graph.textOf_eq_ok_iff.mpr ⟨text, rfl⟩, Except.ok_bind, located_of_placeable placeable]

theorem ofNamed_of_usable (usable : Usable g e) :
    ofNamed g origin base e = .ok (standFor g base e) := by
  obtain ⟨spec, statedSpec, specText, specPlace⟩ := usable.spec
  obtain ⟨output, statedOutput, outputText, outputPlace⟩ := usable.output
  have seen : locatedSpec base (g.display spec) = .ok (standFor g base e).spec := by
    unfold locatedSpec
    by_cases remote : Location.isRemote (g.display spec) = true
    · simp [remote, standFor, textAt, statedSpec]
    · rw [if_neg remote, located_of_placeable (specPlace.resolve_left remote)]
      simp [remote, standFor, textAt, statedSpec, Except.map]
  have put : located base (g.display output) = .ok (standFor g base e).output := by
    rw [located_of_placeable outputPlace]
    simp [standFor, textAt, statedOutput]
  have changed : ((firstStated g (g.fields e.2) ["transformer"]).mapM fun v => do
      located base (← g.textOf v)) = .ok (standFor g base e).transformer := by
    change _ = Except.ok ((textAt g e.2 ["transformer"]).map fun t => (Path.ofText t).resolve base)
    unfold textAt
    cases stated : firstStated g (g.fields e.2) ["transformer"] with
    | none => rfl
    | some v =>
      obtain ⟨text, place⟩ := usable.transformer v stated
      rw [Option.mapM_some, located_textOf text place]
      rfl
  rw [ofNamed_of_stated usable.named usable.mapping statedSpec statedOutput, settle,
    Graph.textOf_eq_ok_iff.mpr ⟨specText, rfl⟩, Except.ok_bind, seen, Except.ok_bind,
    Graph.textOf_eq_ok_iff.mpr ⟨outputText, rfl⟩, Except.ok_bind, put, Except.ok_bind, changed]
  rfl

/-- What is stated can be used if the settings come to something. -/
theorem usable_of_settle {spec output : Value} {s : Settings} (named : e.1.hasText = true)
    (mapping : g.isMapping e.2 = true)
    (statedSpec : firstStated g (g.fields e.2) ["spec", "file", "url"] = some spec)
    (statedOutput : firstStated g (g.fields e.2) ["output"] = some output)
    (success : settle g base e spec output = .ok s) : Usable g e := by
  obtain ⟨specText, texted, success⟩ := Except.bind_eq_ok success
  obtain ⟨seen, sees, success⟩ := Except.bind_eq_ok success
  obtain ⟨outputText, texted', success⟩ := Except.bind_eq_ok success
  obtain ⟨place, puts, success⟩ := Except.bind_eq_ok success
  obtain ⟨transformer, changed, -⟩ := Except.bind_eq_ok success
  obtain ⟨hasSpec, rfl⟩ := Graph.textOf_eq_ok_iff.mp texted
  obtain ⟨hasOutput, rfl⟩ := Graph.textOf_eq_ok_iff.mp texted'
  refine ⟨named, mapping, ⟨spec, statedSpec, hasSpec, ?_⟩,
    ⟨output, statedOutput, hasOutput, placeable_of_located puts⟩, fun v stated => ?_⟩
  · by_cases remote : Location.isRemote (g.display spec) = true
    · exact .inl remote
    · rw [locatedSpec, if_neg remote] at sees
      cases found : located base (g.display spec) with
      | ok path => exact .inr (placeable_of_located found)
      | error stop =>
        rw [found] at sees
        cases sees
  · rw [stated] at changed
    obtain ⟨path, located, -⟩ := Except.bind_eq_ok changed
    obtain ⟨t, texted'', located⟩ := Except.bind_eq_ok located
    obtain ⟨hasText, rfl⟩ := Graph.textOf_eq_ok_iff.mp texted''
    exact ⟨hasText, placeable_of_located located⟩

theorem stopsAtValue_settle (g : Graph) (base : Path) (e : Scalar × Value) (spec output : Value) :
    StopsAtValue (settle g base e spec output) := by
  have text := stopsAtValue_textOf g
  have place := stopsAtValue_located base
  refine (text spec).bind fun t _ => .bind ?_ fun _ _ => (text output).bind fun t' _ =>
    (place t').bind fun _ _ => .bind ?_ fun _ _ => .ok _
  · unfold locatedSpec
    split
    · exact .ok _
    · exact (place t).map _
  · cases firstStated g (g.fields e.2) ["transformer"] with
    | none => exact .ok _
    | some v =>
      have seen : StopsAtValue (do located base (← g.textOf v)) := (text v).bind fun t _ => place t
      exact seen.map some

theorem incomplete_or_stated (named : e.1.hasText = true) :
    (∃ fault, Incomplete g e fault) ∨ g.isMapping e.2 = true ∧ ∃ spec output,
      firstStated g (g.fields e.2) ["spec", "file", "url"] = some spec ∧
      firstStated g (g.fields e.2) ["output"] = some output := by
  cases mapping : g.isMapping e.2 with
  | false => exact .inl ⟨_, .notMapping named mapping⟩
  | true =>
    cases spec : firstStated g (g.fields e.2) ["spec", "file", "url"] with
    | none => exact .inl ⟨_, .missingSpec named mapping spec⟩
    | some v =>
      cases output : firstStated g (g.fields e.2) ["output"] with
      | none => exact .inl ⟨_, .missingOutput named mapping (by rw [spec]; rfl) output⟩
      | some w => exact .inr ⟨rfl, v, w, rfl, rfl⟩

/-- There are settings of an entry exactly if it can be used. -/
theorem exists_ofNamed_iff : (∃ s, ofNamed g origin base e = .ok s) ↔ Usable g e := by
  refine ⟨fun ⟨s, success⟩ => ?_, fun usable => ⟨_, ofNamed_of_usable usable⟩⟩
  have named : e.1.hasText = true := by
    obtain ⟨name, named, -⟩ := Except.bind_eq_ok success
    unfold Scalar.textOf at named
    split at named
    · assumption
    · cases named
  rcases incomplete_or_stated named with ⟨fault, incomplete⟩ | ⟨mapping, spec, output, here, there⟩
  · cases (ofNamed_of_incomplete incomplete).symm.trans success
  · rw [ofNamed_of_stated named mapping here there] at success
    exact usable_of_settle named mapping here there success

/-- An entry that cannot be used although it is complete has a fault in a value. -/
theorem ofNamed_of_complete (unusable : ¬Usable g e) (complete : ∀ fault, ¬Incomplete g e fault) :
    ∃ d, OfValue d ∧ ofNamed g origin base e = malformed d := by
  by_cases named : e.1.hasText = true
  · obtain ⟨mapping, spec, output, here, there⟩ := (incomplete_or_stated named).resolve_left
      fun ⟨fault, incomplete⟩ => complete fault incomplete
    rw [ofNamed_of_stated named mapping here there]
    cases settled : settle g base e spec output with
    | ok s => exact absurd (usable_of_settle named mapping here there settled) unusable
    | error stop =>
      obtain ⟨d, value, rfl⟩ := stopsAtValue_settle g base e spec output stop settled
      exact ⟨d, value, rfl⟩
  · refine ⟨.numberTooLong, by simp [OfValue], ?_⟩
    rw [ofNamed, Scalar.textOf, if_neg named]
    rfl

theorem seenFrom_standFor (clean : base.IsClean) (usable : Usable g e) :
    SeenFrom g base e (standFor g base e) := by
  obtain ⟨spec, statedSpec, -⟩ := usable.spec
  obtain ⟨output, statedOutput, -⟩ := usable.output
  have specText : textAt g e.2 ["spec", "file", "url"] = some (g.display spec) := by
    rw [textAt, statedSpec, Option.map_some]
  have outputText : textAt g e.2 ["output"] = some (g.display output) := by
    rw [textAt, statedOutput, Option.map_some]
  have resolved := fun t => Path.isClean_resolve_ofText t clean
  refine ⟨rfl, ⟨_, specText, ?_⟩, ⟨_, outputText, ?_⟩, rfl, fun p changed => ?_, rfl⟩
  · simp only [standFor, specText, Option.getD_some]
    split
    · rfl
    · rw [Path.ofText_text (resolved _)]
      exact ⟨rfl, resolved _, rfl⟩
  · simp only [standFor, outputText, Option.getD_some]
    exact ⟨trivial, resolved _⟩
  · obtain ⟨t, -, rfl⟩ := Option.map_eq_some_iff.mp changed
    exact resolved t

/-! ### All entries -/

variable {es : Entries} {document : Value}

theorem ofDocument_eq (entries : g.entries? document = some es) (nonempty : es ≠ []) :
    ofDocument g document origin base = es.mapM (ofNamed g origin base) := by
  obtain ⟨e, rest, rfl⟩ := List.exists_cons_of_ne_nil nonempty
  unfold ofDocument
  rw [entries]
  rfl

/-- The first entry of which there are no settings stops the loading. -/
theorem mapM_ofNamed_of_error {before after : Entries} {stop : Stop}
    (usable : ∀ e' ∈ before, Usable g e') (stopped : ofNamed g origin base e = .error stop) :
    (before ++ e :: after).mapM (ofNamed g origin base) = .error stop := by
  have first : before.mapM (ofNamed g origin base) = .ok (before.map (standFor g base)) :=
    Except.mapM_eq_ok_map fun e' member => ofNamed_of_usable (usable e' member)
  rw [List.mapM_append, first, Except.ok_bind, List.mapM_cons, stopped]
  rfl

end Settings

namespace Command

open Settings (Usable Incomplete SeenFrom OfValue)

/-- What a configuration comes to is told by the text of its file. -/
theorem configured_eq (config : String) (m : Machine) :
    configured config m =
      match (m.files.read m.workingDirectory (Path.ofText config)).map fun raw =>
        String.ofList (Text.unifyLineEnds raw.toList) with
      | .ok text => Settings.ofText text m.workingDirectory (Path.ofText config)
      | .error (.file e) => fail (.config (.unreadable e) (some (Path.ofText config).text))
      | .error stop => .error stop := by
  have here : (liftM (Host.workingDirectory (m := StateM Machine)) : Step (StateM Machine) Path).on m =
      (.ok m.workingDirectory, m) := rfl
  have text : (liftM (Host.readText (m := StateM Machine) (Path.ofText config)) :
      Step (StateM Machine) (Result String)).on m =
        (.ok ((m.files.read m.workingDirectory (Path.ofText config)).map fun raw =>
          String.ofList (Text.unifyLineEnds raw.toList)), m) := rfl
  unfold configured Settings.load
  rw [Step.on_bind_ok here, Step.on_bind_ok text]
  generalize (m.files.read m.workingDirectory (Path.ofText config)).map _ = text
  cases text with
  | ok text => rfl
  | error stop => cases stop <;> rfl

/-- A configuration at an absolute path comes to the same wherever a command runs. -/
theorem configured_of_isAbsolute {config : String} {m m' : Machine}
    (absolute : (Path.ofText config).isAbsolute = true) (files : m'.files = m.files) :
    configured config m' = configured config m := by
  have located := Path.resolve_of_isAbsolute absolute m'.workingDirectory m.workingDirectory
  have read := m.files.read_of_isAbsolute absolute m'.workingDirectory m.workingDirectory
  rw [configured_eq, configured_eq, files, read]
  simp only [Settings.ofText, located]

/-- The directory that the locations of a configuration are seen from. -/
def directoryOf (config : String) : Path := ((Path.ofText config).resolve ⟨.root, []⟩).parent

theorem isClean_directoryOf (config : String) : (directoryOf config).IsClean :=
  (Path.isClean_resolve_ofText config ⟨rfl, by simp⟩).parent

/-- A configuration with entries, at an absolute path, is loaded as a whole. What it comes to does not
depend on the working directory. There are settings exactly if each entry can be used. Otherwise the first
entry that cannot stops the loading: with its name if it is no mapping or lacks what it has to say, and
else for a fault in one of its values. The settings are those of the entries, in order, seen from the
directory of the configuration. -/
theorem configurations_are_loaded_as_a_whole {config raw : String} {m : Machine} {g : Graph}
    {document : Value} {es : Entries} (absolute : (Path.ofText config).isAbsolute = true)
    (read : m.files.read m.workingDirectory (Path.ofText config) = .ok raw)
    (parsed : Yaml.read (String.ofList (Text.unifyLineEnds raw.toList)) = .ok (g, document))
    (entries : g.entries? document = some es) (nonempty : es ≠ []) :
    (∀ m', m'.files = m.files → configured config m' = configured config m) ∧
    ((∃ all, configured config m = .ok all) ↔ ∀ e ∈ es, Usable g e) ∧
    (∀ before e after, es = before ++ e :: after → (∀ e' ∈ before, Usable g e') → ¬Usable g e →
      (∀ fault, Incomplete g e fault →
        configured config m = fail (.config fault (some (Path.ofText config).text))) ∧
      ((∀ fault, ¬Incomplete g e fault) →
        ∃ d, OfValue d ∧ configured config m = malformed d)) ∧
    (∀ all, configured config m = .ok all →
      List.Forall₂ (SeenFrom g (directoryOf config)) es all) := by
  have located := Path.resolve_of_isAbsolute absolute m.workingDirectory ⟨.root, []⟩
  have each : configured config m =
      es.mapM (Settings.ofNamed g (Path.ofText config).text (directoryOf config)) := by
    rw [configured_eq, read, directoryOf, ← located]
    simp only [Except.map, Settings.ofText, parsed]
    exact Settings.ofDocument_eq entries nonempty
  have possible : (∃ all, configured config m = .ok all) ↔ ∀ e ∈ es, Usable g e := by
    rw [each, Except.mapM_eq_ok_iff]
    exact forall₂_congr fun e _ => Settings.exists_ofNamed_iff
  refine ⟨fun m' => configured_of_isAbsolute absolute, possible, ?_, fun all loaded => ?_⟩
  · rintro before e after rfl usable unusable
    rw [each]
    refine ⟨fun fault incomplete => Settings.mapM_ofNamed_of_error usable
      (Settings.ofNamed_of_incomplete incomplete), fun complete => ?_⟩
    obtain ⟨d, value, stopped⟩ := Settings.ofNamed_of_complete unusable complete
    exact ⟨d, value, Settings.mapM_ofNamed_of_error usable stopped⟩
  · have usable := possible.mp ⟨all, loaded⟩
    rw [each, Except.mapM_eq_ok_map fun e member => Settings.ofNamed_of_usable (usable e member)]
      at loaded
    cases loaded
    exact List.forall₂_map_right_iff.mpr (List.forall₂_same.mpr fun e member =>
      Settings.seenFrom_standFor (isClean_directoryOf config) (usable e member))

/-- A configuration of a client whose document stands beside its directory, and of one from a remote
place. -/
def shopText : String :=
  "pets:\n  file: ../pets.json\n  output: out/../gen\nshops:\n  url: http://shop.org\n  output: /srv\n"

def shopMachine : Machine where
  files := ⟨[(["work"], .directory), (["work", "conf"], .directory),
    (["work", "conf", "codegen.yaml"], .file shopText)]⟩
  workingDirectory := Path.ofText "/work"

def shopGraph : Graph :=
  ⟨#[.mapping [(.text "pets", .node 1), (.text "shops", .node 2)],
     .mapping [(.text "file", .text "../pets.json"), (.text "output", .text "out/../gen")],
     .mapping [(.text "url", .text "http://shop.org"), (.text "output", .text "/srv")]]⟩

theorem shops_are_loaded_from_everywhere :
    ∃ pets shops, configured "/work/conf/codegen.yaml" shopMachine = .ok [pets, shops] ∧
      configured "/work/conf/codegen.yaml" { shopMachine with workingDirectory := Path.ofText "/" } =
        .ok [pets, shops] ∧
      pets.name = "pets" ∧ pets.output = ⟨.root, ["work", "conf", "gen"]⟩ ∧
      shops.name = "shops" ∧ shops.output = ⟨.root, ["srv"]⟩ := by
  have absolute : (Path.ofText "/work/conf/codegen.yaml").isAbsolute = true := by decide +kernel
  have read : shopMachine.files.read shopMachine.workingDirectory
      (Path.ofText "/work/conf/codegen.yaml") = .ok shopText := by
    decide +kernel
  have parsed : Yaml.read (String.ofList (Text.unifyLineEnds shopText.toList)) =
      .ok (shopGraph, .node 0) := by
    decide +kernel
  have usable : ∀ e ∈ [(Scalar.text "pets", Value.node 1), (.text "shops", .node 2)],
      Usable shopGraph e := by
    intro e member
    refine (@Settings.exists_ofNamed_iff shopGraph ⟨.root, []⟩ "" e).mp (Except.exists_ok ?_)
    revert e
    decide +kernel
  obtain ⟨anywhere, possible, -, loaded⟩ :=
    configurations_are_loaded_as_a_whole absolute read parsed rfl (by simp)
  obtain ⟨all, success⟩ := possible.mpr usable
  have elsewhere := anywhere { shopMachine with workingDirectory := Path.ofText "/" } rfl
  have each := loaded all success
  cases each with
  | @cons _ pets _ rest seenPets each =>
    cases each with
    | @cons _ shops _ none seenShops each =>
      cases each
      obtain ⟨t, stated, output, -⟩ := seenPets.output
      obtain ⟨t', stated', output', -⟩ := seenShops.output
      have gen : Settings.textAt shopGraph (.node 1) ["output"] = some "out/../gen" := by
        decide +kernel
      have srv : Settings.textAt shopGraph (.node 2) ["output"] = some "/srv" := by decide +kernel
      cases stated.symm.trans gen
      cases stated'.symm.trans srv
      exact ⟨pets, shops, success, elsewhere.trans success, seenPets.name,
        output.trans (by decide +kernel), seenShops.name, output'.trans (by decide +kernel)⟩

/-- An entry that says all it has to say, where a null stands in the output. -/
def nullText : String := "pets:\n  spec: pets.json\n  output: \"a\\0b\"\n"

def nullMachine : Machine where
  files := ⟨[(["work"], .directory), (["work", "codegen.yaml"], .file nullText)]⟩
  workingDirectory := Path.ofText "/work"

def nullGraph : Graph :=
  ⟨#[.mapping [(.text "pets", .node 1)],
     .mapping [(.text "spec", .text "pets.json"), (.text "output", .text "a\x00b")]]⟩

/-- No file can be there, so the entry cannot be used, and no message says so. -/
theorem null_in_an_output_is_malformed :
    nullMachine.files.read nullMachine.workingDirectory (Path.ofText "/work/codegen.yaml") =
      .ok nullText ∧
    Yaml.read nullText = .ok (nullGraph, .node 0) ∧
    nullGraph.entries? (.node 0) = some [(.text "pets", .node 1)] ∧
    nullGraph.isMapping (.node 1) = true ∧
    Settings.textAt nullGraph (.node 1) ["spec", "file", "url"] = some "pets.json" ∧
    Settings.textAt nullGraph (.node 1) ["output"] = some "a\x00b" ∧
    configured "/work/codegen.yaml" nullMachine = malformed .malformedPath := by
  decide +kernel

end Command

end TypedClient
