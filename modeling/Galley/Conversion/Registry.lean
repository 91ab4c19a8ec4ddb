import Galley.Conversion.Context
import Galley.Conversion.Edit
import Galley.Conversion.TagName
import Galley.Markup.Location

/-!
The registry: a finite map from tag keys to handlers, kept in the order of its keys. A node whose
key has no handler is transparent: its children are converted where it stands.
-/

namespace Galley

/-- Attaches what a node stands for to a context and gives the context for the node's children. -/
abbrev Handler := Location → Context → Edit Context

/-- The key of a node; comments and fragments have none. -/
def Node.key? : Node → Option TagKey
  | .text _ => some .text
  | .branch (.element name _) _ => some (.element name)
  | _ => none

/-- Handlers by key, the keys in order and each once. -/
structure Registry where
  entries : List (TagKey × Handler)
  sorted : entries.Pairwise fun entry later => entry.1.Before later.1

namespace Registry

def empty : Registry := ⟨[], .nil⟩

/-- The entries with one more or one replaced. -/
def insertEntry (key : TagKey) (handler : Handler) :
    List (TagKey × Handler) → List (TagKey × Handler)
  | [] => [(key, handler)]
  | entry :: rest =>
    if key = entry.1 then (key, handler) :: rest
    else if key.Before entry.1 then (key, handler) :: entry :: rest
    else entry :: insertEntry key handler rest

theorem mem_insertEntry {key : TagKey} {handler : Handler} {entries : List (TagKey × Handler)}
    {entry : TagKey × Handler} (h : entry ∈ insertEntry key handler entries) :
    entry.1 = key ∨ entry ∈ entries := by
  induction entries with
  | nil => simp_all [insertEntry]
  | cons first rest ih =>
    rw [insertEntry] at h
    split at h
    · rcases List.mem_cons.1 h with rfl | h
      · exact .inl rfl
      · exact .inr (.tail _ h)
    · split at h
      · rcases List.mem_cons.1 h with rfl | h
        · exact .inl rfl
        · exact .inr h
      · rcases List.mem_cons.1 h with rfl | h
        · exact .inr (.head _)
        · exact (ih h).imp id (.tail _)

theorem sorted_insertEntry {key : TagKey} {handler : Handler} {entries : List (TagKey × Handler)}
    (h : entries.Pairwise fun entry later => entry.1.Before later.1) :
    (insertEntry key handler entries).Pairwise fun entry later => entry.1.Before later.1 := by
  induction entries with
  | nil => simp [insertEntry]
  | cons first rest ih =>
    obtain ⟨hfirst, hrest⟩ := List.pairwise_cons.1 h
    rw [insertEntry]
    split
    · rename_i heq
      exact List.pairwise_cons.2 ⟨fun later hl => heq ▸ hfirst later hl, hrest⟩
    · rename_i hne
      split
      · rename_i hlt
        refine List.pairwise_cons.2 ⟨fun later hl => ?_, h⟩
        rcases List.mem_cons.1 hl with rfl | hl
        · exact hlt
        · exact hlt.trans (hfirst later hl)
      · rename_i hnlt
        refine List.pairwise_cons.2 ⟨fun later hl => ?_, ih hrest⟩
        rcases mem_insertEntry hl with heq | hl
        · exact heq ▸ (TagKey.before_or_before hne).resolve_left hnlt
        · exact hfirst later hl

/-- The handler of a key. -/
def find? (registry : Registry) (key : TagKey) : Option Handler :=
  (registry.entries.find? fun entry => entry.1 = key).map Prod.snd

/-- The registry with `handler` under `key`, in place of any that was there. -/
def insert (registry : Registry) (key : TagKey) (handler : Handler) : Registry :=
  ⟨insertEntry key handler registry.entries, sorted_insertEntry registry.sorted⟩

/-- The registry without a handler for `key`. -/
def erase (registry : Registry) (key : TagKey) : Registry :=
  ⟨registry.entries.filter fun entry => entry.1 ≠ key, registry.sorted.filter _⟩

theorem find?_insertEntry {key other : TagKey} {handler : Handler}
    {entries : List (TagKey × Handler)} :
    ((insertEntry key handler entries).find? fun entry => entry.1 = other).map Prod.snd =
      if other = key then some handler
      else (entries.find? fun entry => entry.1 = other).map Prod.snd := by
  induction entries with
  | nil => by_cases h : other = key <;> simp [insertEntry, h, eq_comm]
  | cons first rest ih =>
    rw [insertEntry]
    split
    · by_cases h : other = key <;> simp_all [eq_comm]
    · split
      · by_cases h : other = key <;> simp_all [eq_comm]
      · by_cases h : first.1 = other
        · simp_all [eq_comm]
        · simp only [List.find?_cons, h, decide_false, ih]

theorem find?_insert {registry : Registry} {key other : TagKey} {handler : Handler} :
    (registry.insert key handler).find? other =
      if other = key then some handler else registry.find? other :=
  find?_insertEntry

theorem find?_erase {registry : Registry} {key other : TagKey} :
    (registry.erase key).find? other = if other = key then none else registry.find? other := by
  by_cases h : other = key
  · simp [find?, erase, h, List.find?_filter]
  · simp only [find?, erase, List.find?_filter, if_neg h]
    congr 2
    funext entry
    by_cases he : entry.1 = other <;> simp_all

/-- The keys that have a handler, in order. -/
def keys (registry : Registry) : List TagKey :=
  registry.entries.map Prod.fst

/-- The number of handlers. -/
def size (registry : Registry) : Nat :=
  registry.entries.length

/-- The handler of a node, by its key. -/
def handler? (registry : Registry) (node : Node) : Option Handler :=
  node.key?.bind registry.find?

/-! ### Updates by the text of a tag -/

/-- Adds a handler for a tag that has none. -/
def register (registry : Registry) (tag : String) (handler : Handler) :
    Except ConvertError Registry := do
  let key ← TagKey.ofString tag
  if (registry.find? key).isSome then .error (.duplicateHandler key)
  else .ok (registry.insert key handler)

/-- Puts a handler under a tag and gives the one that was there. -/
def replace (registry : Registry) (tag : String) (handler : Handler) :
    Except ConvertError (Option Handler × Registry) := do
  let key ← TagKey.ofString tag
  return (registry.find? key, registry.insert key handler)

/-- Takes the handler of a tag away, which makes the tag transparent, and gives it. -/
def remove (registry : Registry) (tag : String) :
    Except ConvertError (Option Handler × Registry) := do
  let key ← TagKey.ofString tag
  return (registry.find? key, registry.erase key)

/-- A text that names no key has no handler. -/
def contains (registry : Registry) (tag : String) : Bool :=
  match TagKey.ofString tag with
  | .ok key => (registry.find? key).isSome
  | .error _ => false

end Registry

end Galley
