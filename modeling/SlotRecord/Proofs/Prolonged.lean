/-!
# Readers and longer inputs

A reader takes something from the front of its input and leaves the rest. More input
behind does not change what is read: it is left as well. A reader that stops only at
what follows, as at the end of a number, has to leave something for this to hold.
-/

namespace SlotRecord

/-- Whatever is read in one case is read in another one too, and there `more` is left
behind the rest. -/
def Prolongs {α β : Type} (more : List α) (short long : Option (β × List α)) : Prop :=
  ∀ found rest, short = some (found, rest) → long = some (found, rest ++ more)

/-- Whatever is read without reaching the end of the input in one case is read in
another one too. -/
def ProlongsInside {α β : Type} (more : List α) (short long : Option (β × List α)) : Prop :=
  ∀ found next rest, short = some (found, next :: rest) →
    long = some (found, next :: rest ++ more)

namespace Prolongs

variable {α β γ : Type} {more : List α}

theorem none (long : Option (β × List α)) : Prolongs more .none long := by
  intro found rest read
  cases read

theorem some (found : β) (rest : List α) :
    Prolongs more (some (found, rest)) (some (found, rest ++ more)) := by
  intro other left read
  cases read
  rfl

theorem inside {short long : Option (β × List α)} (prolongs : Prolongs more short long) :
    ProlongsInside more short long :=
  fun found next rest read => prolongs found (next :: rest) read

theorem bind {short long : Option (β × List α)}
    {next after : β × List α → Option (γ × List α)} (first : Prolongs more short long)
    (later : ∀ found rest, Prolongs more (next (found, rest)) (after (found, rest ++ more))) :
    Prolongs more (short >>= next) (long >>= after) := by
  intro found rest read
  obtain ⟨⟨front, left⟩, taken, others⟩ := Option.bind_eq_some_iff.mp read
  exact Option.bind_eq_some_iff.mpr
    ⟨_, first front left taken, later front left found rest others⟩

/-- A step that takes nothing from the input. -/
theorem check {outcome : Option γ} {next after : γ → Option (β × List α)}
    (later : ∀ found, Prolongs more (next found) (after found)) :
    Prolongs more (outcome >>= next) (outcome >>= after) := by
  intro whole rest read
  obtain ⟨found, same, others⟩ := Option.bind_eq_some_iff.mp read
  exact Option.bind_eq_some_iff.mpr ⟨found, same, later found whole rest others⟩

/-- Where all of a longer input is read, nothing is read of its front: that would leave
the rest of the input behind. -/
theorem eq_none {short : Option (β × List α)} {found : β}
    (prolongs : Prolongs more short (.some (found, []))) (lost : more ≠ []) :
    short = .none := by
  cases short with
  | none => rfl
  | some front =>
      have longer := prolongs front.1 front.2 rfl
      have ended : [] = front.2 ++ more := congrArg Prod.snd (Option.some.inj longer)
      exact absurd (List.append_eq_nil_iff.mp ended.symm).2 lost

end Prolongs

/-- A reader that has to leave something, in front of one that needs something. -/
theorem ProlongsInside.bind {α β γ : Type} {more : List α}
    {short long : Option (β × List α)} {next after : β × List α → Option (γ × List α)}
    (first : ProlongsInside more short long) (ended : ∀ found, next (found, []) = none)
    (later : ∀ found mark rest,
      Prolongs more (next (found, mark :: rest)) (after (found, mark :: rest ++ more))) :
    Prolongs more (short >>= next) (long >>= after) := by
  intro found rest read
  obtain ⟨⟨front, left⟩, taken, others⟩ := Option.bind_eq_some_iff.mp read
  cases left with
  | nil =>
      rw [ended] at others
      cases others
  | cons mark left =>
      exact Option.bind_eq_some_iff.mpr
        ⟨_, first front mark left taken, later front mark left found rest others⟩

end SlotRecord
