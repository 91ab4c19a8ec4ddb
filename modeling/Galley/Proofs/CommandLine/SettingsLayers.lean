import Galley.CommandLine.Run
import Galley.Proofs.Conversion.SettingsText

/-!
  Settings in layers: flags over the settings file, and the file over the defaults.

  What a value states is read off its fields one by one (`Stated.By`), with no default in it. Each
  section inverts to its fields, so what is read is what is stated over the defaults
  (`Stated.exists_by_of_ofJson?`), and a flag then has the last word (`run_convert`).
-/

namespace Galley

open Json

theorem ConversionSettings.fields_of_ofJson? {value : Json} {settings : ConversionSettings}
    (h : ofJson? value = some settings) :
    orDefault word64? ({} : ConversionSettings).maxDepth (value.field? 0 "max_depth") =
        some settings.maxDepth ∧
      orDefault optionalText? ({} : ConversionSettings).reservedSpanClass
        (value.field? 1 "reserved_span_class") = some settings.reservedSpanClass := by
  obtain ⟨given, hgiven, h⟩ := Option.bind_eq_some_iff.1 h
  have hdepth : given[0]? = some (value.field? 0 "max_depth") := getElem?_of_fields? hgiven rfl
  have hreserved : given[1]? = some (value.field? 1 "reserved_span_class") :=
    getElem?_of_fields? hgiven rfl
  split at h
  · obtain rfl := Option.some.inj hdepth
    obtain rfl := Option.some.inj hreserved
    obtain ⟨maxDepth, hmax, h⟩ := Option.bind_eq_some_iff.1 h
    obtain ⟨reservedSpanClass, hclass, h⟩ := Option.bind_eq_some_iff.1 h
    obtain rfl := Option.some.inj h
    exact ⟨hmax, hclass⟩
  · cases h

namespace CommandLine

namespace Settings

theorem format_of_formatOfJson? {value : Json} {format : OutputFormat}
    (h : formatOfJson? value = some format) :
    orDefault OutputFormat.ofJson? .outline (value.field? 0 "format") = some format := by
  obtain ⟨given, hgiven, h⟩ := Option.bind_eq_some_iff.1 h
  have hformat : given[0]? = some (value.field? 0 "format") := getElem?_of_fields? hgiven rfl
  split at h
  · obtain rfl := Option.some.inj hformat
    exact h
  · cases h

theorem formatOfJson?_record (members : List (String × Json)) :
    formatOfJson? (.record members) = (unique? (valuesOf "format" members)).bind
      (orDefault OutputFormat.ofJson? .outline) := by
  rw [formatOfJson?, fields?_record, List.mapM_cons, List.mapM_nil]
  cases unique? (valuesOf "format" members) <;> rfl

theorem ofJson?_record (members : List (String × Json)) : ofJson? (.record members) =
    (unique? (valuesOf "conversion" members)).bind fun conversion =>
      (unique? (valuesOf "output" members)).bind fun output =>
        (orDefault ConversionSettings.ofJson? {} conversion).bind fun conversion =>
          (orDefault formatOfJson? .outline output).bind fun format =>
            some { conversion := conversion, format := format } := by
  rw [ofJson?, fields?_record]
  simp only [List.mapM_cons, List.mapM_nil]
  cases unique? (valuesOf "conversion" members) with
  | none => rfl
  | some conversion => cases unique? (valuesOf "output" members) <;> rfl

theorem sections_of_ofJson? {value : Json} {settings : Settings}
    (h : ofJson? value = some settings) :
    orDefault ConversionSettings.ofJson? {} (value.field? 0 "conversion") =
        some settings.conversion ∧
      orDefault formatOfJson? .outline (value.field? 1 "output") = some settings.format := by
  obtain ⟨given, hgiven, h⟩ := Option.bind_eq_some_iff.1 h
  have hfirst : given[0]? = some (value.field? 0 "conversion") := getElem?_of_fields? hgiven rfl
  have hsecond : given[1]? = some (value.field? 1 "output") := getElem?_of_fields? hgiven rfl
  split at h
  · obtain rfl := Option.some.inj hfirst
    obtain rfl := Option.some.inj hsecond
    obtain ⟨conversion, hconversion, h⟩ := Option.bind_eq_some_iff.1 h
    obtain ⟨format, hformat, h⟩ := Option.bind_eq_some_iff.1 h
    obtain rfl := Option.some.inj h
    exact ⟨hconversion, hformat⟩
  · cases h

end Settings

/-! ## What a settings file states -/

def OutputFormat.name : OutputFormat → String
  | .outline => "outline"
  | .json => "json"

theorem OutputFormat.ofJson?_name (format : OutputFormat) :
    ofJson? (.text format.name) = some format := by
  cases format <;> rfl

/-- The settings that are stated, each or not. A reserved class may be stated to be none. -/
structure Stated where
  maxDepth : Option Nat := none
  reservedSpanClass : Option (Option String) := none
  format : Option OutputFormat := none
  deriving DecidableEq, Repr

namespace Stated

/-- Each setting that a value has a field for is stated by it, and has to be one of its kind; no
    other setting is stated. -/
structure By (stated : Stated) (value : Json) : Prop where
  maxDepth : ((value.field? 0 "conversion").bind (field? 0 "max_depth")).map word64? =
    stated.maxDepth.map some
  reservedSpanClass : ((value.field? 0 "conversion").bind (field? 1 "reserved_span_class")).map
    optionalText? = stated.reservedSpanClass.map some
  format : ((value.field? 1 "output").bind (field? 0 "format")).map OutputFormat.ofJson? =
    stated.format.map some

/-- The text is accepted as a settings file, which states these settings and no others. -/
def In (stated : Stated) (text : String) : Prop :=
  ∃ value, read text = some value ∧ (Settings.ofJson? value).isSome ∧ stated.By value

/-- The settings of a command: each is the flag's, if there is one for it, or else what the file
    states, or else the default. -/
def resolve (stated : Stated) (format : Option OutputFormat) (maxDepth : Option Nat) :
    Settings where
  conversion :=
    { maxDepth := (maxDepth.or stated.maxDepth).getD 512
      reservedSpanClass := stated.reservedSpanClass.getD (some "style_color_0_0_0") }
  format := (format.or stated.format).getD .outline

variable {stated stated' : Stated} {value : Json} {text : String}

/-- A value states one thing. -/
theorem By.unique (h : stated.By value) (h' : stated'.By value) : stated = stated' := by
  have hinjective {α : Type} : Function.Injective (Option.map (some : α → Option α)) :=
    Option.map_injective fun _ _ => Option.some.inj
  cases stated
  cases stated'
  rw [mk.injEq]
  exact ⟨hinjective (h.maxDepth.symm.trans h'.maxDepth),
    hinjective (h.reservedSpanClass.symm.trans h'.reservedSpanClass),
    hinjective (h.format.symm.trans h'.format)⟩

theorem exists_of_conversion {given : Option Json} {conversion : ConversionSettings}
    (h : orDefault ConversionSettings.ofJson? {} given = some conversion) :
    ∃ (maxDepth : Option Nat) (reserved : Option (Option String)),
      (given.bind (field? 0 "max_depth")).map word64? = maxDepth.map some ∧
      (given.bind (field? 1 "reserved_span_class")).map optionalText? = reserved.map some ∧
      conversion = ⟨maxDepth.getD 512, reserved.getD (some "style_color_0_0_0")⟩ := by
  cases given with
  | none => exact ⟨none, none, rfl, rfl, (Option.some.inj h).symm⟩
  | some value =>
    obtain ⟨hdepth, hreserved⟩ := ConversionSettings.fields_of_ofJson? h
    obtain ⟨maxDepth, hmax, hmaxDepth⟩ := orDefault_eq_some_iff.1 hdepth
    obtain ⟨reserved, hclass, hreservedSpanClass⟩ := orDefault_eq_some_iff.1 hreserved
    exact ⟨maxDepth, reserved, hmax, hclass,
      congrArg₂ ConversionSettings.mk hmaxDepth hreservedSpanClass⟩

theorem exists_of_output {given : Option Json} {format : OutputFormat}
    (h : orDefault Settings.formatOfJson? .outline given = some format) :
    ∃ stated : Option OutputFormat,
      (given.bind (field? 0 "format")).map OutputFormat.ofJson? = stated.map some ∧
      format = stated.getD .outline := by
  cases given with
  | none => exact ⟨none, rfl, (Option.some.inj h).symm⟩
  | some value => exact orDefault_eq_some_iff.1 (Settings.format_of_formatOfJson? h)

/-- **What is read is what is stated, over the defaults**, whichever sections and fields there
    are. -/
theorem exists_by_of_ofJson? {settings : Settings} (h : Settings.ofJson? value = some settings) :
    ∃ stated : Stated, stated.By value ∧ settings = stated.resolve none none := by
  obtain ⟨hconversion, houtput⟩ := Settings.sections_of_ofJson? h
  obtain ⟨maxDepth, reserved, hmaxDepth, hreserved, heq⟩ := exists_of_conversion hconversion
  obtain ⟨format, hformat, heq'⟩ := exists_of_output houtput
  exact ⟨⟨maxDepth, reserved, format⟩, ⟨hmaxDepth, hreserved, hformat⟩,
    congrArg₂ Settings.mk heq heq'⟩

/-- What a text states is what is read from it. -/
theorem In.ofJson?_eq (h : stated.In text) :
    (read text).bind Settings.ofJson? = some (stated.resolve none none) := by
  obtain ⟨value, hread, haccepted, hby⟩ := h
  obtain ⟨settings, hsettings⟩ := Option.isSome_iff_exists.1 haccepted
  obtain ⟨stated', hby', rfl⟩ := exists_by_of_ofJson? hsettings
  rw [hread, Option.bind_some, hsettings, hby.unique hby']

theorem In.unique (h : stated.In text) (h' : stated'.In text) : stated = stated' := by
  obtain ⟨value, hread, -, hby⟩ := h
  obtain ⟨value', hread', -, hby'⟩ := h'
  obtain rfl := Option.some.inj (hread.symm.trans hread')
  exact hby.unique hby'

/-- Only a depth that fits into 64 bits is accepted. -/
theorem In.lt_size (h : stated.In text) : ∀ n ∈ stated.maxDepth, n < UInt64.size := by
  obtain ⟨value, -, -, hby⟩ := h
  intro n hn
  have hdepth := hby.maxDepth
  rw [Option.mem_def.1 hn] at hdepth
  obtain ⟨given, -, hword⟩ := Option.map_eq_some_iff.1 hdepth
  obtain ⟨-, hlt⟩ := Option.filter_eq_some_iff.1 hword
  exact of_decide_eq_true hlt

theorem exists_in (h : ((read text).bind Settings.ofJson?).isSome) :
    ∃ stated : Stated, stated.In text := by
  obtain ⟨settings, hsettings⟩ := Option.isSome_iff_exists.1 h
  obtain ⟨value, hread, hvalue⟩ := Option.bind_eq_some_iff.1 hsettings
  obtain ⟨stated, hby, -⟩ := exists_by_of_ofJson? hvalue
  exact ⟨stated, value, hread, Option.isSome_of_eq_some hvalue, hby⟩

/-! ## Files that state settings -/

section Record

variable {members : List (String × Json)} {conversion output : Option (List (String × Json))}

theorem field?_eq_map {α : Type} {encode : α → Json} {name : String} {given : Option α}
    (h : valuesOf name members = given.toList.map encode) (position : Nat) :
    (record members).field? position name = given.map encode := by
  rw [field?_record, h]
  cases given <;> rfl

/-- Values that are written decode to what they were. -/
theorem map_decode {α : Type} {encode : α → Json} {decode : Json → Option α} {given : Option α}
    (h : ∀ a ∈ given, decode (encode a) = some a) :
    (given.map encode).map decode = given.map some := by
  rw [Option.map_map]
  exact Option.map_congr h

theorem in_of_isText (htext : IsText (.record members) text)
    (hconversion : valuesOf "conversion" members = conversion.toList.map record)
    (houtput : valuesOf "output" members = output.toList.map record)
    (hdepth : valuesOf "max_depth" (conversion.getD []) = stated.maxDepth.toList.map natural)
    (hreserved : valuesOf "reserved_span_class" (conversion.getD []) =
      stated.reservedSpanClass.toList.map (ofOption Json.text))
    (hformat : valuesOf "format" (output.getD []) =
      stated.format.toList.map fun format => Json.text format.name)
    (hsmall : ∀ n ∈ stated.maxDepth, n < UInt64.size) : stated.In text := by
  have hword : (stated.maxDepth.map natural).map word64? = stated.maxDepth.map some :=
    map_decode fun n hn => word64?_natural (hsmall n hn)
  have hclass : (stated.reservedSpanClass.map (ofOption Json.text)).map optionalText? =
      stated.reservedSpanClass.map some :=
    map_decode fun reserved _ => optionalText?_ofOption reserved
  have hname : (stated.format.map fun format => Json.text format.name).map OutputFormat.ofJson? =
      stated.format.map some :=
    map_decode fun format _ => OutputFormat.ofJson?_name format
  refine ⟨.record members, (isText_iff.1 htext).1, ?_, ?_⟩
  -- A section that is there decodes, since each of its fields does.
  · obtain ⟨settings, hsettings⟩ : ∃ settings, orDefault ConversionSettings.ofJson? {}
        (conversion.map record) = some settings := by
      cases conversion with
      | none => exact ⟨{}, rfl⟩
      | some fields =>
        rw [Option.getD_some] at hdepth hreserved
        rw [Option.map_some, orDefault, ConversionSettings.ofJson?_record, hdepth, hreserved,
          unique?_toList, unique?_toList, Option.bind_some, Option.bind_some,
          orDefault_eq_some_iff.2 ⟨_, hword, rfl⟩, orDefault_eq_some_iff.2 ⟨_, hclass, rfl⟩]
        exact ⟨_, rfl⟩
    obtain ⟨format, hfound⟩ : ∃ format, orDefault Settings.formatOfJson? .outline
        (output.map record) = some format := by
      cases output with
      | none => exact ⟨.outline, rfl⟩
      | some fields =>
        rw [Option.getD_some] at hformat
        rw [Option.map_some, orDefault, Settings.formatOfJson?_record, hformat, unique?_toList,
          Option.bind_some, orDefault_eq_some_iff.2 ⟨_, hname, rfl⟩]
        exact ⟨_, rfl⟩
    rw [Settings.ofJson?_record, hconversion, houtput, unique?_toList, unique?_toList,
      Option.bind_some, Option.bind_some, hsettings, hfound]
    rfl
  -- A section that is missing states no more than an empty one.
  · have hsection (given : Option (List (String × Json))) (position : Nat) (name : String) :
        (given.map record).bind (field? position name) =
          (record (given.getD [])).field? position name := by
      cases given <;> rfl
    refine ⟨?_, ?_, ?_⟩
    · rw [field?_eq_map hconversion, hsection, field?_eq_map hdepth, hword]
    · rw [field?_eq_map hconversion, hsection, field?_eq_map hreserved, hclass]
    · rw [field?_eq_map houtput, hsection, field?_eq_map hformat, hname]

end Record

/-- Every setting stated. -/
def ofSettings (settings : Settings) : Stated where
  maxDepth := some settings.conversion.maxDepth
  reservedSpanClass := some settings.conversion.reservedSpanClass
  format := some settings.format

/-- There is a settings file that states given settings. -/
theorem exists_ofSettings_in {settings : Settings}
    (h : settings.conversion.maxDepth < UInt64.size) :
    ∃ text, (ofSettings settings).In text := by
  have hwritable : Writable (.record [("conversion", settings.conversion.toJson),
      ("output", .record [("format", .text settings.format.name)])]) := by
    refine .record (List.forall_mem_cons.2 ⟨settings.conversion.writable_toJson, ?_⟩)
    exact List.forall_mem_singleton.2 (.record (List.forall_mem_singleton.2 (.text _)))
  refine ⟨_, @in_of_isText _ _ _
    (some [("max_depth", .natural settings.conversion.maxDepth),
      ("reserved_span_class", .ofOption .text settings.conversion.reservedSpanClass)])
    (some [("format", .text settings.format.name)]) (isText_compact hwritable)
      rfl rfl rfl rfl rfl ?_⟩
  rintro n ⟨⟩
  exact h

/-! ## Flags over the file, the file over the defaults -/

theorem withFlags_resolve (stated : Stated) (format : Option OutputFormat)
    (maxDepth : Option Nat) :
    (stated.resolve none none).withFlags format maxDepth = stated.resolve format maxDepth := by
  cases format <;> cases maxDepth <;> rfl

/-- Where every setting is stated and no flag is given, nothing is left to a default. -/
theorem resolve_ofSettings (settings : Settings) :
    (ofSettings settings).resolve none none = settings := rfl

end Stated

section Convert

variable {env : Environment} {settingsPath : Option String} {text : String} {stated : Stated}

theorem loadSettings_of_in
    (hfile : env.file (settingsPath.getD env.defaultSettingsPath) = .text text)
    (hin : stated.In text) : loadSettings env settingsPath = .ok (stated.resolve none none) := by
  have htext (path : String) : settingsOfText path text = .ok (stated.resolve none none) := by
    rw [settingsOfText, hin.ofJson?_eq]
  cases settingsPath with
  | none =>
    rw [Option.getD_none] at hfile
    simp only [loadSettings, hfile, htext]
  | some path =>
    rw [Option.getD_some] at hfile
    simp only [loadSettings, hfile, htext]

/-- A conversion by its settings: what it prints, or why it fails. -/
theorem run_convert (hfile : env.file (settingsPath.getD env.defaultSettingsPath) = .text text)
    (hin : stated.In text) (input : String) (container : Container)
    (format : Option OutputFormat) (maxDepth : Option Nat) :
    run env ⟨settingsPath, .convert input container format maxDepth⟩ =
      (readInput env input).bind fun source =>
        (convertToDocument source container (stated.resolve format maxDepth).conversion).map
          fun d => render d (stated.resolve format maxDepth).format ++ "\n" := by
  have hload := loadSettings_of_in hfile hin
  rw [← stated.withFlags_resolve]
  cases hinput : readInput env input with
  | error failure => simp only [run, hload, hinput, bind, Except.bind]
  | ok source =>
    simp only [run, hload, hinput, bind, Except.bind]
    cases convertToDocument source container
      ((stated.resolve none none).withFlags format maxDepth).conversion <;> rfl

/-- **The settings of a conversion come in layers.** What a settings file states is unique, and each
    setting is the flag's, else what the file states, else the default, apart from the others
    (`Stated.resolve`). There is a file that states all of these, and with every such file a
    command without flags does the same, in every environment with the same input. Where the input
    cannot be read or the conversion fails, the command fails and prints nothing. -/
theorem convert_settings_layers
    (hfile : env.file (settingsPath.getD env.defaultSettingsPath) = .text text)
    (haccepted : ((read text).bind Settings.ofJson?).isSome) (format : Option OutputFormat)
    {maxDepth : Option Nat} (hsmall : ∀ n ∈ maxDepth, n < UInt64.size) :
    ∃ stated : Stated, stated.In text ∧
      (∃ explicit, (Stated.ofSettings (stated.resolve format maxDepth)).In explicit) ∧
      (∀ (env' : Environment) (settingsPath' : Option String) (explicit : String),
        env'.file (settingsPath'.getD env'.defaultSettingsPath) = .text explicit →
        (Stated.ofSettings (stated.resolve format maxDepth)).In explicit →
        ∀ input container, readInput env' input = readInput env input →
          run env ⟨settingsPath, .convert input container format maxDepth⟩ =
            run env' ⟨settingsPath', .convert input container none none⟩) ∧
      ∀ input container failure, readInput env input = .error failure ∨
          (∃ source, readInput env input = .ok source ∧
            convertToDocument source container (stated.resolve format maxDepth).conversion =
              .error failure) →
        run env ⟨settingsPath, .convert input container format maxDepth⟩ = .error failure := by
  obtain ⟨stated, hin⟩ := Stated.exists_in haccepted
  refine ⟨stated, hin, Stated.exists_ofSettings_in ?_, ?_, ?_⟩
  · have hdepth := hin.lt_size
    rw [Stated.resolve]
    cases maxDepth with
    | some n => exact hsmall n rfl
    | none =>
      cases hstated : stated.maxDepth with
      | some n => exact hdepth n hstated
      | none => exact (by decide : 512 < UInt64.size)
  · intro env' settingsPath' explicit hfile' hexplicit input container hinput
    rw [run_convert hfile hin, run_convert hfile' hexplicit, Stated.resolve_ofSettings, hinput]
  · rintro input container failure (hread | ⟨source, hread, hconvert⟩)
    · rw [run_convert hfile hin, hread]
      rfl
    · rw [run_convert hfile hin, hread, Except.bind, hconvert]
      rfl

/-- A depth from a flag, and a reserved class from a file that has nothing else to say but in
    members that are not known. -/
theorem convert_settings_layers_partial :
    let file := Json.compact (.record [("z", .natural 1), ("output", .record []),
      ("conversion", .record [("reserved_span_class", .null), ("format", .text "json")])])
    let explicit := Json.compact (.record [("output", .record [("format", .text "outline")]),
      ("conversion", .record [("max_depth", .natural 3), ("reserved_span_class", .null)])])
    let env : Environment :=
      { file := fun path => .text (if path = "config" then file else explicit)
        standardInput := .text "x"
        defaultSettingsPath := "config" }
    ((read file).bind Settings.ofJson?).isSome ∧
      run env ⟨none, .convert "-" .newSection none (some 3)⟩ =
        run env ⟨some "all", .convert "-" .newSection none none⟩ ∧
      run env ⟨none, .convert "-" .newSection none (some 3)⟩ =
        .ok "section\n  paragraph\n    text \"x\"\n" := by
  intro file explicit env
  have hfile : Stated.In ⟨none, some none, none⟩ file := by
    refine @Stated.in_of_isText _ _ _ (some [("reserved_span_class", .null),
      ("format", .text "json")]) (some []) (isText_compact (.record ?_)) rfl rfl rfl rfl rfl nofun
    have hconversion : Writable
        (.record [("reserved_span_class", .null), ("format", .text "json")]) :=
      .record (by simp [Writable.null, Writable.text])
    have hempty : Writable (.record []) := .record (by simp)
    simp [Writable.natural, hconversion, hempty]
  have hexplicit : Stated.In ⟨some 3, some none, some .outline⟩ explicit := by
    refine @Stated.in_of_isText _ _ _ (some [("max_depth", .natural 3),
      ("reserved_span_class", .null)]) (some [("format", .text "outline")])
        (isText_compact (.record ?_)) rfl rfl rfl rfl rfl (by decide)
    have hconversion : Writable
        (.record [("max_depth", .natural 3), ("reserved_span_class", .null)]) :=
      .record (by simp [Writable.natural, Writable.null])
    have houtput : Writable (.record [("format", .text "outline")]) :=
      .record (by simp [Writable.text])
    simp [hconversion, houtput]
  have haccepted : ((read file).bind Settings.ofJson?).isSome := by
    rw [hfile.ofJson?_eq]
    rfl
  have hpath : env.file ((none : Option String).getD env.defaultSettingsPath) = .text file := rfl
  obtain ⟨stated, hin, -, hsame, -⟩ :=
    @convert_settings_layers env none file hpath haccepted none (some 3) (by decide)
  obtain rfl := hin.unique hfile
  have hrun := hsame env (some "all") explicit rfl hexplicit "-" .newSection rfl
  refine ⟨haccepted, hrun, ?_⟩
  decide +kernel

end Convert

end CommandLine

end Galley
