/-!
Tag keys: what handlers are registered under. Text nodes have a key of their own, which comes
before every element name; element names are ordered as strings.
-/

namespace Galley

inductive TagKey where
  /-- All text nodes. -/
  | text
  /-- The elements of one name. -/
  | element (name : String)
  deriving DecidableEq, Repr

namespace TagKey

/-- The spelling of the text key. -/
def textSpelling : String := "#text"

def spelling : TagKey → String
  | text => textSpelling
  | element name => name

/-- The order in which keys are listed. -/
def Before : TagKey → TagKey → Prop
  | text, element _ => True
  | element name, element other => name < other
  | _, text => False

instance (key other : TagKey) : Decidable (key.Before other) :=
  match key, other with
  | text, element _ => .isTrue trivial
  | element name, element other => inferInstanceAs (Decidable (name < other))
  | text, text => .isFalse id
  | element _, text => .isFalse id

theorem Before.irrefl (key : TagKey) : ¬ key.Before key := by
  cases key with
  | text => exact id
  | element name => exact String.lt_irrefl name

theorem Before.trans {key other last : TagKey} (h : key.Before other) (h' : other.Before last) :
    key.Before last := by
  cases key <;> cases other <;> cases last <;> simp only [Before] at h h' ⊢
  exact String.lt_trans h h'

/-- Of two different keys one comes before the other. -/
theorem before_or_before {key other : TagKey} (h : key ≠ other) :
    key.Before other ∨ other.Before key := by
  cases key <;> cases other <;> simp only [Before, or_true, true_or]
  · exact absurd rfl h
  · rename_i name name'
    by_cases hlt : name < name'
    · exact .inl hlt
    · refine .inr (Decidable.byContradiction fun hgt => h ?_)
      rw [String.le_antisymm (String.not_lt.1 hgt) (String.not_lt.1 hlt)]

end TagKey

end Galley
