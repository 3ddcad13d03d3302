/-!
# Things by name

A collection of things, each under a name of its own. Inserting under a name that is taken replaces
what it stood for; `find?_insert` and `find?_erase` say all there is to know about looking up.
-/

namespace Workflow

/-- Things under names. -/
structure Named (α : Type) where
  entries : List (String × α)
  deriving DecidableEq, Repr

namespace Named

variable {α : Type}

/-- No names. -/
def empty : Named α := ⟨[]⟩

/-- What a name stands for. -/
def find? (ns : Named α) (name : String) : Option α :=
  (ns.entries.find? fun entry => entry.1 == name).map Prod.snd

/-- Forgets a name. -/
def erase (ns : Named α) (name : String) : Named α :=
  ⟨ns.entries.filter fun entry => entry.1 != name⟩

/-- Binds a name, in the place of what it stood for. -/
def insert (ns : Named α) (name : String) (a : α) : Named α :=
  ⟨(name, a) :: (ns.erase name).entries⟩

theorem find?_erase (ns : Named α) (name other : String) :
    (ns.erase name).find? other = if other = name then none else ns.find? other := by
  unfold find? erase
  simp only [List.find?_filter]
  split
  · next h =>
    subst h
    have : ns.entries.find? (fun entry => decide ((entry.1 != other) = true ∧
        (entry.1 == other) = true)) = none := by
      simp +contextual
    rw [this]; rfl
  · next h =>
    congr 2
    funext entry
    by_cases he : entry.1 = other
    · simp [he, h]
    · simp [he]

theorem find?_insert (ns : Named α) (name other : String) (a : α) :
    (ns.insert name a).find? other = if other = name then some a else ns.find? other := by
  have h := find?_erase ns name other
  unfold find? insert at *
  rw [List.find?_cons]
  by_cases ho : other = name
  · simp [ho]
  · have hb : (name == other) = false := by simpa using fun e => ho e.symm
    simp only [hb]
    rw [h, if_neg ho, if_neg ho]

end Named

end Workflow
