import CoverageMatrix.Proofs.Program.Transcript

/-!
# Programs partway

A program that is carried out among others has, at any time, gone over some exchanges and has the
rest before it (`Program.ComesTo`).
-/
namespace CoverageMatrix.Program

variable {α β : Type}

/-- A program comes over a transcript to what is left of it; nothing is left to do when the command
runner broke down. -/
inductive ComesTo : Program α → Transcript → Program α → Prop
  | refl (p : Program α) : ComesTo p [] p
  | answered {r : Request} {next : r.Answer → Program α} {x : r.Answer} {t : Transcript}
    {q : Program α} (rest : ComesTo (next x) t q) : ComesTo (.ask r next) (⟨r, some x⟩ :: t) q
  | unanswered {i : Invocation} {next : (Request.command i).Answer → Program α} :
    ComesTo (.ask (.command i) next) [⟨.command i, none⟩] .crash

variable {p q : Program α} {t u : Transcript}

theorem ComesTo.trans {s : Program α} (h : p.ComesTo t q) (g : q.ComesTo u s) :
    p.ComesTo (t ++ u) s := by
  induction h with
  | refl => exact g
  | answered _ ih => exact .answered (ih g)
  | unanswered =>
    cases g
    exact .unanswered

theorem comesTo_done_iff {a : α} : (done a).ComesTo t q ↔ t = [] ∧ q = .done a := by
  constructor
  · intro h
    cases h
    exact ⟨rfl, rfl⟩
  · rintro ⟨rfl, rfl⟩
    exact .refl _

theorem comesTo_crash_iff : (crash : Program α).ComesTo t q ↔ t = [] ∧ q = .crash := by
  constructor
  · intro h
    cases h
    exact ⟨rfl, rfl⟩
  · rintro ⟨rfl, rfl⟩
    exact .refl _

theorem comesTo_note_iff {n : Note} {next : Unit → Program α} :
    (ask (.note n) next).ComesTo t q ↔
      (t = [] ∧ q = .ask (.note n) next) ∨
        ∃ u : Transcript, t = ⟨.note n, some ()⟩ :: u ∧ (next ()).ComesTo u q := by
  constructor
  · intro h
    cases h with
    | refl => exact .inl ⟨rfl, rfl⟩
    | answered rest => exact .inr ⟨_, rfl, rest⟩
  · rintro (⟨rfl, rfl⟩ | ⟨u, rfl, rest⟩)
    · exact .refl _
    · exact .answered rest

/-- Where a program with another one behind it comes to: a place in the first, or a place in the
second, which goes on with the value of the first. -/
theorem ComesTo.of_bind {f : α → Program β} {q : Program β} (h : (p.bind f).ComesTo t q) :
    (∃ s, p.ComesTo t s ∧ q = s.bind f) ∨
      ∃ t₁ t₂ a, t = t₁ ++ t₂ ∧ p.Follows t₁ (some a) ∧ (f a).ComesTo t₂ q := by
  induction p generalizing t with
  | done a => exact .inr ⟨[], t, a, rfl, .done a, h⟩
  | crash =>
    obtain ⟨rfl, rfl⟩ := comesTo_crash_iff.mp h
    exact .inl ⟨.crash, .refl _, rfl⟩
  | ask r next ih =>
    cases h with
    | refl => exact .inl ⟨_, .refl _, rfl⟩
    | answered rest =>
      rcases ih _ rest with ⟨s, first, rfl⟩ | ⟨t₁, t₂, a, rfl, first, second⟩
      · exact .inl ⟨s, .answered first, rfl⟩
      · exact .inr ⟨_, t₂, a, rfl, .answered first, second⟩
    | unanswered => exact .inl ⟨.crash, .unanswered, rfl⟩

/-- A request was made in a transcript, or is made next by what is left. -/
def Asked (t : Transcript) (q : Program α) (r : Request) : Prop :=
  (∃ e ∈ t, e.request = r) ∨ ∃ next, q = .ask r next

theorem asked_cons_iff {e : Exchange} {r : Request} :
    Asked (e :: t) q r ↔ e.request = r ∨ Asked t q r := by
  simp [Asked, or_assoc]

theorem asked_append_iff {r : Request} :
    Asked (t ++ u) q r ↔ (∃ e ∈ t, e.request = r) ∨ Asked u q r := by
  simp only [Asked, List.mem_append, or_and_right, exists_or, or_assoc]

@[simp] theorem not_asked_done {a : α} {r : Request} : ¬Asked [] (done a) r := by
  simp [Asked]

theorem asked_nil_ask_iff {r s : Request} {next : r.Answer → Program α} :
    Asked [] (ask r next) s ↔ r = s := by
  constructor
  · rintro (⟨e, mem, -⟩ | ⟨_, same⟩)
    · cases mem
    · cases same
      rfl
  · rintro rfl
    exact .inr ⟨next, rfl⟩

/-- What a program with another one behind it asks next is asked by the first, or by the second if
the first is done. -/
theorem asked_bind {f : α → Program β} {r : Request} (h : Asked t (q.bind f) r) :
    Asked t q r ∨ ∃ a, q = .done a ∧ Asked [] (f a) r := by
  rcases h with made | ⟨next, eq⟩
  · exact .inl (.inl made)
  · cases q with
    | done a => exact .inr ⟨a, rfl, .inr ⟨next, eq⟩⟩
    | crash => cases eq
    | ask s rest =>
      cases eq
      exact .inl (.inr ⟨rest, rfl⟩)

theorem Follows.asked {P : Request → Prop} {C : Prop} {Q : α → Prop} {o : Option α} {r : Request}
    (h : p.Follows t o) (obeys : p.Obeys P C Q) (asked : ∃ e ∈ t, e.request = r) : P r := by
  obtain ⟨e, mem, rfl⟩ := asked
  exact h.asks obeys e mem

/-- On its way a program asks only what it may ask. -/
theorem ComesTo.asked {P : Request → Prop} {C : Prop} {Q : α → Prop} {r : Request}
    (h : p.ComesTo t q) (obeys : p.Obeys P C Q) (asked : Asked t q r) : P r := by
  induction h with
  | refl p =>
    obtain ⟨e, mem, -⟩ | ⟨next, rfl⟩ := asked
    · cases mem
    · exact obeys.1
  | answered _ ih =>
    obtain rfl | asked := asked_cons_iff.mp asked
    · exact obeys.1
    · exact ih (obeys.2 _) asked
  | unanswered =>
    obtain rfl | ⟨e, mem, -⟩ | ⟨next, ⟨⟩⟩ := asked_cons_iff.mp asked
    · exact obeys.1
    · cases mem

theorem ComesTo.follows {a : α} (h : p.ComesTo t (.done a)) : p.Follows t (some a) := by
  generalize hq : done a = q at h
  induction h with
  | refl p =>
    cases hq
    exact .done a
  | answered _ ih => exact .answered (ih hq)
  | unanswered => cases hq

/-- What has come to an end has nothing left to do. -/
theorem ComesTo.eq_done {a : α} (h : p.ComesTo t q) (ends : p.Follows t (some a)) : q = .done a := by
  induction h with
  | refl p =>
    generalize ho : some a = o at ends
    cases ends with
    | done b =>
      cases ho
      rfl
    | crash => cases ho
  | answered _ ih =>
    cases ends with
    | answered rest => exact ih rest
  | unanswered => cases ends

end CoverageMatrix.Program
