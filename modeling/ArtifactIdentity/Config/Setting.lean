import ArtifactIdentity.Descriptor.Coercion

/-!
# Settings

A section of a configuration is a table of settings. A setting that is not made has a default, and a key
that is no setting is refused.
-/

namespace ArtifactIdentity

/-- The setting under a name, or its default where it is not made. -/
def setting {α : Type} (name : String) (entries : Entries) (default : α)
    (accept : Literal → Except Problem α) : Checked α :=
  match entries.lookup name with
  | none => .sound default
  | some literal =>
    match accept literal with
    | .ok value => .sound value
    | .error problem => .flawed ⟨[name], problem, literal⟩ []

/-- The keys that are no settings. -/
def strangeKeys (names : List String) (entries : Entries) : List Issue :=
  (entries.filter fun e => !names.contains e.1).map fun e => ⟨[e.1], .extra, e.2⟩

end ArtifactIdentity
