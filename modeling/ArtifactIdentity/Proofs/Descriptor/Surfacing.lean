import ArtifactIdentity.Descriptor.Reading
import ArtifactIdentity.Proofs.Json.Writable

/-!
# The fault of a table

Each issue of a table is about a literal that stands in the table, or about a field that is missing. Where
the literals of the table can be shown, the fault that is surfaced is therefore a malformed identity; the
limit on digits is met only by a literal that cannot be shown.
-/

namespace ArtifactIdentity

/-- An issue about a literal that can be shown is surfaced as a malformed identity. -/
theorem Issue.surface_of_writable {i : Issue} (h : i.subject.isWritable = true) :
    ∃ x, i.surface = .malformed x := by
  unfold surface
  split
  · exact ⟨_, rfl⟩
  · exact ⟨_, Fault.of_writable h⟩

/-- An issue is about a field that a table misses or about a literal in it. -/
def Issue.IsAbout (i : Issue) (entries : Entries) : Prop :=
  i.subject = .absent ∨ ∃ name, (name, i.subject) ∈ entries

theorem Issue.IsAbout.isWritable {i : Issue} {entries : Entries} (h : i.IsAbout entries)
    (hentries : Literal.entriesWritable entries = true) : i.subject.isWritable = true := by
  rcases h with h | ⟨name, h⟩
  · rw [h]
    rfl
  · exact Literal.entriesWritable_iff.mp hentries _ h

namespace Field

variable {α : Type} {f : Field} {entries : Entries} {accept : Literal → Except Problem α} {i : Issue}

/-- What is given for a field stands in the table. -/
theorem mem_of_given? {given : String × Literal} (h : f.given? entries = some given) :
    given ∈ entries := by
  unfold given? at h
  split at h
  · rename_i literal hliteral
    obtain rfl := Option.some.inj h
    exact Table.mem_of_lookup hliteral
  · obtain ⟨literal, hliteral, rfl⟩ := Option.map_eq_some_iff.mp h
    exact Table.mem_of_lookup hliteral

theorem isAbout_of_required (h : i ∈ (f.required entries accept).issues) : i.IsAbout entries := by
  unfold required at h
  split at h
  · obtain rfl := List.mem_singleton.mp h
    exact Or.inl rfl
  · rename_i spelling literal hgiven
    split at h
    · cases h
    · rename_i problem _
      obtain rfl := List.mem_singleton.mp h
      cases problem with
      | missing => exact Or.inl rfl
      | _ => exact Or.inr ⟨spelling, mem_of_given? hgiven⟩

theorem isAbout_of_optional {default : α} (h : i ∈ (f.optional entries default accept).issues) :
    i.IsAbout entries := by
  unfold optional at h
  split at h
  · cases h
  · exact isAbout_of_required h

end Field

namespace Descriptor

theorem isAbout_of_checkFields {entries : Entries} {i : Issue} (h : i ∈ (checkFields entries).issues) :
    i.IsAbout entries := by
  simp only [checkFields, Checked.issues_ap, Checked.issues_map, List.mem_append, or_assoc] at h
  rcases h with h | h | h | h | h | h | h | h | h | h | h | h | h | h
  all_goals first | exact Field.isAbout_of_required h | exact Field.isAbout_of_optional h

/-- **Every issue of a table is about a missing field or a literal of the table.** -/
theorem isAbout_of_ofEntries {entries : Entries} {i : Issue} (h : i ∈ (ofEntries entries).issues) :
    i.IsAbout entries := by
  rw [ofEntries, Checked.issues_alsoFlawed] at h
  rcases List.mem_append.mp h with h | h
  · exact isAbout_of_checkFields h
  · obtain ⟨e, he, rfl⟩ := List.mem_map.mp h
    exact Or.inr ⟨e.1, (List.mem_filter.mp he).1⟩

/-- **The fault of a table whose literals can be shown is a malformed identity.** -/
theorem malformed_of_surfaced {entries : Entries} {fault : Fault}
    (hentries : Literal.entriesWritable entries = true)
    (h : (ofEntries entries).surfaced = .error fault) : ∃ x, fault = .malformed x := by
  cases hchecked : ofEntries entries with
  | sound d =>
    rw [hchecked] at h
    cases h
  | flawed first rest =>
    rw [hchecked] at h
    obtain rfl := Except.error.inj h
    have hfirst : first ∈ (ofEntries entries).issues := by
      rw [hchecked]
      exact List.mem_cons_self
    exact Issue.surface_of_writable ((isAbout_of_ofEntries hfirst).isWritable hentries)

end Descriptor

end ArtifactIdentity
