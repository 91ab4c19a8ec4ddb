import Galley.Json.Fields
import Galley.Proofs.Json.Numerals

/-!
  Known fields of an object, by the values that its members have.

  A value that has a text is a number of 64 bits exactly if it is the numeral of one.
-/

namespace Galley.Json

/-- The values that the members with a name have, in order. -/
def valuesOf (name : String) (members : List (String × Json)) : List Json :=
  (members.filter fun member => member.1 == name).map Prod.snd

/-- What is found of a member with these values, if it may stand at most once. -/
def unique? : List Json → Option (Option Json)
  | [] => some none
  | [value] => some (some value)
  | _ :: _ :: _ => none

theorem uniqueMember?_eq (name : String) (members : List (Option String × Json)) :
    uniqueMember? name members =
      unique? ((members.filter fun member => member.1 == some name).map Prod.snd) := by
  rw [uniqueMember?]
  generalize members.filter (fun member => member.1 == some name) = found
  rcases found with _ | ⟨member, _ | ⟨next, rest⟩⟩ <;> rfl

theorem uniqueMember?_record (name : String) (members : List (String × Json)) :
    uniqueMember? name (members.map fun member => (some member.1, member.2)) =
      unique? (valuesOf name members) := by
  rw [uniqueMember?_eq, List.filter_map, List.map_map]
  rfl

theorem fields?_record (names : List String) (members : List (String × Json)) :
    (record members).fields? names = names.mapM fun name => unique? (valuesOf name members) := by
  have hnames : (members.map fun member => (some member.1, member.2)).all
      (fun member : Option String × Json => member.1.isSome) := by
    simp
  rw [record, fields?, if_pos hnames]
  simp only [uniqueMember?_record]

theorem unique?_toList {α : Type} (encode : α → Json) (value : Option α) :
    unique? (value.toList.map encode) = some (value.map encode) := by
  cases value <;> rfl

theorem unique?_eq_none {values : List Json} (h : 2 ≤ values.length) : unique? values = none := by
  rcases values with _ | ⟨value, _ | ⟨next, rest⟩⟩
  · cases h
  · simp at h
  · rfl

/-! ## Values of fields -/

theorem word64?_natural {n : Nat} (hn : n < UInt64.size) : (natural n).word64? = some n := by
  rw [word64?, natural?_natural]
  exact if_pos (decide_eq_true hn)

theorem Writable.word64?_eq_none {value : Json} (h : Writable value)
    (hvalue : ∀ n < UInt64.size, value ≠ Json.natural n) : value.word64? = none := by
  rw [word64?, Option.filter_eq_none_iff]
  intro n hn hsmall
  exact hvalue n (of_decide_eq_true hsmall) ((h.natural?_eq_some_iff n).mp hn)

theorem optionalText?_ofOption (content : Option String) :
    (ofOption text content).optionalText? = some content := by
  cases content <;> rfl

/-! ## Fields one by one -/

/-- What a record has as a field: in an object by name, in an array by position. -/
def field? (position : Nat) (name : String) : Json → Option Json
  | array items => items[position]?
  | value => value.member? name

theorem member?_of_uniqueMember? {name : String} {members : List (Option String × Json)}
    {found : Option Json} (h : uniqueMember? name members = some found) :
    (object members).member? name = found := by
  rw [member?, ← List.head?_filter]
  rw [uniqueMember?] at h
  split at h
  · next hnone =>
    rw [hnone]
    exact Option.some.inj h
  · next member hone =>
    rw [hone]
    exact Option.some.inj h
  · cases h

theorem getElem?_of_mapM {α β : Type} {f : α → Option β} {as : List α} {bs : List β}
    (h : as.mapM f = some bs) {index : Nat} {a : α} (ha : as[index]? = some a) :
    ∃ b, bs[index]? = some b ∧ f a = some b := by
  induction as generalizing bs index with
  | nil => cases ha
  | cons first as ih =>
    simp only [List.mapM_cons, Option.pure_def, Option.bind_eq_bind, Option.bind_eq_some_iff,
      Option.some.injEq] at h
    obtain ⟨b, hb, bs', hbs, rfl⟩ := h
    cases index with
    | zero => exact ⟨b, rfl, Option.some.inj ha ▸ hb⟩
    | succ index => exact ih hbs ha

/-- A record that is read has each field's value in the place of its name. -/
theorem getElem?_of_fields? {names : List String} {value : Json} {given : List (Option Json)}
    (h : value.fields? names = some given) {position : Nat} {name : String}
    (hname : names[position]? = some name) :
    given[position]? = some (value.field? position name) := by
  cases value with
  | object members =>
    rw [fields?] at h
    split at h
    · obtain ⟨found, hfound, hmember⟩ := getElem?_of_mapM h hname
      rw [hfound, field?, member?_of_uniqueMember? hmember]
      exact nofun
    · cases h
  | array items =>
    rw [fields?] at h
    split at h
    · next hle =>
      obtain ⟨hlt, -⟩ := List.getElem?_eq_some_iff.1 hname
      rw [← Option.some.inj h, field?, List.getElem?_append, List.length_map]
      split
      · next hthere =>
        rw [List.getElem?_map, List.getElem?_eq_getElem hthere]
        rfl
      · next hmissing =>
        rw [List.getElem?_replicate_of_lt (by omega), List.getElem?_eq_none (by omega)]
    · cases h
  | _ => cases h

/-- A field that is read has a value of its kind, or is missing and has its default. -/
theorem orDefault_eq_some_iff {α : Type} {decode : Json → Option α} {default result : α}
    {field : Option Json} :
    orDefault decode default field = some result ↔
      ∃ stated : Option α, field.map decode = stated.map some ∧ result = stated.getD default := by
  cases field with
  | none =>
    constructor
    · intro h
      exact ⟨none, rfl, (Option.some.inj h).symm⟩
    · rintro ⟨stated, hstated, rfl⟩
      obtain rfl := Option.map_eq_none_iff.1 hstated.symm
      rfl
  | some value =>
    constructor
    · intro h
      exact ⟨some result, congrArg some h, rfl⟩
    · rintro ⟨stated, hstated, rfl⟩
      obtain ⟨result, rfl, hdecode⟩ := Option.map_eq_some_iff.1 hstated.symm
      exact hdecode.symm

/-- In an object it is the first member of the name. -/
theorem field?_record (position : Nat) (name : String) (members : List (String × Json)) :
    (record members).field? position name = (valuesOf name members).head? := by
  rw [valuesOf, List.head?_map, List.head?_filter, record, field?, member?, List.find?_map,
    Option.map_map]
  · rfl
  · exact nofun

/-! ## Records -/

theorem record_injective : Function.Injective record := by
  intro members members' h
  have hmap := Json.object.inj h
  refine (List.map_inj_right ?_).mp hmap
  rintro ⟨name, value⟩ ⟨name', value'⟩ hmember
  simpa using hmember

theorem Writable.of_record {members : List (String × Json)} (h : Writable (.record members)) :
    ∀ member ∈ members, Writable member.2 := by
  generalize hvalue : Json.record members = value at h
  cases h with
  | record hmembers =>
    obtain rfl := record_injective hvalue
    exact hmembers
  | _ => cases hvalue

end Galley.Json
