import Prepaid.Text.Blank

/-!
# Texts between blanks

Removing the blanks around a text that stands between blanks gives what it gives for
the text alone.
-/

namespace Prepaid.Text

/-- A text with blanks of a given kind in front of it and behind it. -/
def StandsIn (blank : Char → Prop) (text written : List Char) : Prop :=
  ∃ before after, (∀ c ∈ before, blank c) ∧ (∀ c ∈ after, blank c) ∧
    written = before ++ text ++ after

/-- Blanks in front are dropped together. -/
theorem dropBlanks_append_of_blank {blanks : List Char} (blank : ∀ c ∈ blanks, isBlank c = true)
    (text : List Char) : dropBlanks (blanks ++ text) = dropBlanks text :=
  List.dropWhile_append_of_pos blank

/-- Nothing is left of blanks alone. -/
theorem dropBlanks_of_blank {blanks : List Char} (blank : ∀ c ∈ blanks, isBlank c = true) :
    dropBlanks blanks = [] := by
  have dropped := dropBlanks_append_of_blank blank []
  rwa [List.append_nil] at dropped

/-- Blanks behind a text stay there, unless there is nothing else. -/
theorem reverse_dropBlanks_append {blanks : List Char} (blank : ∀ c ∈ blanks, isBlank c = true)
    (text : List Char) :
    dropBlanks (dropBlanks (text ++ blanks)).reverse = dropBlanks (dropBlanks text).reverse := by
  have reversed : ∀ c ∈ blanks.reverse, isBlank c = true := fun c member =>
    blank c (List.mem_reverse.mp member)
  rw [dropBlanks, dropBlanks, List.dropWhile_append]
  split
  · next empty =>
    have nothing : dropBlanks text = [] := List.isEmpty_iff.mp empty
    have dropped : blanks.dropWhile isBlank = [] := dropBlanks_of_blank blank
    rw [nothing, dropped]
    rfl
  · rw [List.reverse_append]
    exact dropBlanks_append_of_blank reversed _

/-- Blanks around a text do not count. -/
theorem trim_eq_of_standsIn {text written : List Char}
    (stands : StandsIn (isBlank · = true) text written) :
    trim written = trim text := by
  obtain ⟨before, after, front, behind, rfl⟩ := stands
  rw [trim, List.append_assoc, dropBlanks_append_of_blank front, reverse_dropBlanks_append behind,
    trim]

end Prepaid.Text
