import Galley.Conversion.Settings
import Galley.Proofs.Json.Fields
import Galley.Proofs.Json.Acceptance
import Galley.Proofs.Json.Writing

/-!
  Settings from the text of a JSON object.

  What settings are read from a text depends only on the values of the two known members. Where one
  stands and what else the object holds does not matter, nor does the way in which the text spells
  names and values.
-/

namespace Galley.ConversionSettings

open Json

theorem ofJson?_record (members : List (String × Json)) : ofJson? (.record members) =
    (unique? (valuesOf "max_depth" members)).bind fun depth =>
      (unique? (valuesOf "reserved_span_class" members)).bind fun reserved =>
        (orDefault word64? ({} : ConversionSettings).maxDepth depth).bind fun depth =>
          (orDefault optionalText? ({} : ConversionSettings).reservedSpanClass reserved).bind
            fun reserved => some { maxDepth := depth, reservedSpanClass := reserved } := by
  rw [ofJson?, fields?_record]
  simp only [List.mapM_cons, List.mapM_nil]
  cases unique? (valuesOf "max_depth" members) with
  | none => rfl
  | some depth => cases unique? (valuesOf "reserved_span_class" members) <;> rfl

theorem writable_toJson (settings : ConversionSettings) : Writable settings.toJson := by
  refine .record ?_
  rw [List.forall_mem_cons, List.forall_mem_cons]
  refine ⟨?_, ?_, by simp⟩
  · exact .natural settings.maxDepth
  · cases settings.reservedSpanClass with
    | none => exact .null
    | some name => exact .text name

section Text

variable {members : List (String × Json)} {text : String}

theorem decode_of_isText (h : IsText (.record members) text) :
    (read text).bind ofJson? = ofJson? (.record members) := by
  rw [(isText_iff.mp h).1, Option.bind_some]

theorem decode_of_valid (h : IsText (.record members) text) {depth : Option Nat}
    {reserved : Option (Option String)} (hsmall : ∀ n ∈ depth, n < UInt64.size)
    (hdepth : valuesOf "max_depth" members = depth.toList.map Json.natural)
    (hreserved : valuesOf "reserved_span_class" members =
      reserved.toList.map (Json.ofOption Json.text)) :
    (read text).bind ofJson? = some
      { maxDepth := depth.getD ({} : ConversionSettings).maxDepth
        reservedSpanClass := reserved.getD ({} : ConversionSettings).reservedSpanClass } := by
  have hfirst : orDefault word64? ({} : ConversionSettings).maxDepth (depth.map Json.natural) =
      some (depth.getD ({} : ConversionSettings).maxDepth) := by
    cases depth with
    | none => rfl
    | some n => exact word64?_natural (hsmall n rfl)
  have hsecond : orDefault optionalText? ({} : ConversionSettings).reservedSpanClass
      (reserved.map (Json.ofOption Json.text)) =
        some (reserved.getD ({} : ConversionSettings).reservedSpanClass) := by
    cases reserved with
    | none => rfl
    | some content => exact optionalText?_ofOption content
  rw [decode_of_isText h, ofJson?_record, hdepth, hreserved, unique?_toList, unique?_toList,
    Option.bind_some, Option.bind_some, hfirst, hsecond, Option.bind_some, Option.bind_some]

theorem decode_of_repeated (h : IsText (.record members) text) {name : String}
    (hname : name = "max_depth" ∨ name = "reserved_span_class")
    (hrepeated : 2 ≤ (valuesOf name members).length) : (read text).bind ofJson? = none := by
  rw [decode_of_isText h, ofJson?_record]
  rcases hname with rfl | rfl
  · rw [unique?_eq_none hrepeated, Option.bind_none]
  · rw [unique?_eq_none hrepeated]
    cases unique? (valuesOf "max_depth" members) <;> rfl

theorem decode_of_wrongDepth (h : IsText (.record members) text) {value : Json}
    (hmem : value ∈ valuesOf "max_depth" members)
    (hvalue : ∀ n < UInt64.size, value ≠ .natural n) :
    (read text).bind ofJson? = none := by
  have hwritable : Writable value := by
    obtain ⟨member, hmember, rfl⟩ := List.mem_map.mp hmem
    exact (isText_iff.mp h).2.of_record member (List.mem_filter.mp hmember).1
  rcases hvalues : valuesOf "max_depth" members with _ | ⟨only, _ | ⟨next, rest⟩⟩
  · simp [hvalues] at hmem
  · obtain rfl : value = only := by simpa [hvalues] using hmem
    rw [decode_of_isText h, ofJson?_record, hvalues]
    cases unique? (valuesOf "reserved_span_class" members) with
    | none => rfl
    | some reserved => simp [unique?, orDefault, hwritable.word64?_eq_none hvalue]
  · exact decode_of_repeated h (.inl rfl) (by simp [hvalues])

theorem decode_of_toJson {settings : ConversionSettings} (hsmall : settings.maxDepth < UInt64.size)
    (h : IsText settings.toJson text) : (read text).bind ofJson? = some settings := by
  have hdepth : ∀ n ∈ some settings.maxDepth, n < UInt64.size := by
    rintro _ ⟨⟩
    exact hsmall
  have hreserved : valuesOf "reserved_span_class"
      [("max_depth", .natural settings.maxDepth),
        ("reserved_span_class", .ofOption .text settings.reservedSpanClass)] =
      (some settings.reservedSpanClass).toList.map (Json.ofOption Json.text) := by
    simp [valuesOf]
  exact decode_of_valid h hdepth (by simp [valuesOf]) hreserved

end Text

/-- Settings are read back from what they are written as. From the text of any object they are read
if each known member stands at most once and has a value of its kind, a missing one having its
default; and they are not read if one stands twice, or if the depth is not the numeral of a number
that fits into 64 bits. -/
theorem read_settings_text :
    (∀ settings : ConversionSettings, settings.maxDepth < UInt64.size →
      (read settings.toJson.compact).bind ofJson? = some settings ∧
      (read settings.toJson.pretty).bind ofJson? = some settings) ∧
    ∀ members text, IsText (.record members) text →
      (∀ (depth : Option Nat) (reserved : Option (Option String)),
        (∀ n ∈ depth, n < UInt64.size) →
        valuesOf "max_depth" members = depth.toList.map Json.natural →
        valuesOf "reserved_span_class" members = reserved.toList.map (Json.ofOption Json.text) →
        (read text).bind ofJson? = some
          { maxDepth := depth.getD ({} : ConversionSettings).maxDepth
            reservedSpanClass := reserved.getD ({} : ConversionSettings).reservedSpanClass }) ∧
      (∀ name, name = "max_depth" ∨ name = "reserved_span_class" →
        2 ≤ (valuesOf name members).length → (read text).bind ofJson? = none) ∧
      (∀ value ∈ valuesOf "max_depth" members, (∀ n < UInt64.size, value ≠ .natural n) →
        (read text).bind ofJson? = none) := by
  refine ⟨fun settings hsmall => ⟨?_, ?_⟩, fun members text htext => ⟨?_, ?_, ?_⟩⟩
  · exact decode_of_toJson hsmall (isText_compact settings.writable_toJson)
  · exact decode_of_toJson hsmall (isText_pretty settings.writable_toJson)
  · exact fun depth reserved hsmall hdepth hreserved =>
      decode_of_valid htext hsmall hdepth hreserved
  · exact fun name hname hrepeated => decode_of_repeated htext hname hrepeated
  · exact fun value hmem hvalue => decode_of_wrongDepth htext hmem hvalue

/-- A text with a name and a character in escapes, a known name inside a member that is not known,
and the largest depth. -/
theorem isText_escaped : IsText
    (.record [("z", .record [("max_depth", .text "😀")]),
      ("max_depth", .natural 18446744073709551615)])
    ("\x7b\"z\":\x7b\"max_depth\":\"\\ud83d\\ude00\"\x7d,\n" ++
      "\"\\u006dax_depth\" : 18446744073709551615\x7d ") := by
  have hspace : Blank [' '] := by simp [Blank, isBlank]
  have hline : Blank ['\n'] := by simp [Blank, isBlank]
  have hcontent : SpellsText ['😀']
      ['\\', 'u', 'd', '8', '3', 'd', '\\', 'u', 'd', 'e', '0', '0'] := by
    have hpair := SpellsText.pair (rfl : hexNumber? 'd' '8' '3' 'd' = some 0xD83D) rfl
      (rfl : hexNumber? 'd' 'e' '0' '0' = some 0xDE00) rfl .nil
    simpa using hpair
  have htail : SpellsText ['a', 'x', '_', 'd', 'e', 'p', 't', 'h'] _ :=
    spellsText_escape ['a', 'x', '_', 'd', 'e', 'p', 't', 'h']
  have hname : SpellsText ['m', 'a', 'x', '_', 'd', 'e', 'p', 't', 'h'] _ :=
    .plain (by decide) (by decide) (by decide) htail
  have hescaped : SpellsText ['m', 'a', 'x', '_', 'd', 'e', 'p', 't', 'h'] _ :=
    .code (rfl : hexNumber? '0' '0' '6' 'd' = some 0x6D) (by decide) (by decide) htail
  have hinner : SpellsMember ("max_depth", .text "😀") _ :=
    .mk hname blank_nil blank_nil (.string hcontent)
  have hother : SpellsMember ("z", .record [("max_depth", .text "😀")]) _ :=
    .mk (spellsText_escape ['z']) blank_nil blank_nil
      (.object blank_nil (.last hinner blank_nil))
  have hdepth : SpellsMember ("max_depth", .natural 18446744073709551615) _ :=
    .mk hescaped hspace hspace (spells_natural 18446744073709551615)
  exact ⟨[], _, [' '], blank_nil,
    .object blank_nil (.more hother blank_nil hline (.last hdepth blank_nil)), hspace, by decide⟩

theorem read_settings_text_escaped :
    (read ("\x7b\"z\":\x7b\"max_depth\":\"\\ud83d\\ude00\"\x7d,\n" ++
      "\"\\u006dax_depth\" : 18446744073709551615\x7d ")).bind ofJson? =
        some { maxDepth := 18446744073709551615 } ∧
    (read (toJson { maxDepth := 3, reservedSpanClass := some "\"\\\n😀" }).compact).bind ofJson? =
      some { maxDepth := 3, reservedSpanClass := some "\"\\\n😀" } ∧
    (read (record [("max_depth", .natural 1), ("max_depth", .natural 1)]).compact).bind ofJson? =
      none ∧
    (read (record [("max_depth", .null)]).compact).bind ofJson? = none := by
  obtain ⟨hwritten, htext⟩ := read_settings_text
  refine ⟨?_, (hwritten _ (by decide)).1, ?_, ?_⟩
  · exact (htext _ _ isText_escaped).1 (some 18446744073709551615) none (by decide) rfl rfl
  · have hrecord : Writable (.record [("max_depth", .natural 1), ("max_depth", .natural 1)]) :=
      .record (by simp [Writable.natural])
    exact (htext _ _ (isText_compact hrecord)).2.1 "max_depth" (.inl rfl) (by decide)
  · have hrecord : Writable (.record [("max_depth", .null)]) := .record (by simp [Writable.null])
    exact (htext _ _ (isText_compact hrecord)).2.2 .null (by simp [valuesOf]) (by simp [natural])

end Galley.ConversionSettings
