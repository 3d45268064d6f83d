import CoverageMatrix.Program.Transcript

/-!
# The transcripts of a program

A program with another one behind it follows the transcripts of the first with those of the second
behind them (`follows_bind_iff`). Over one transcript a program comes to one end (`Follows.cut`),
and the conditions that a program keeps to hold along its transcripts. A program that runs alone
follows one of them (`exists_follows_run`).
-/
namespace CoverageMatrix

@[simp] theorem Transcript.notes_nil : Transcript.notes [] = [] := rfl

@[simp] theorem Transcript.notes_cons (e : Exchange) (t : Transcript) :
    Transcript.notes (e :: t) = e.request.notes ++ t.notes := by
  simp [Transcript.notes]

@[simp] theorem Transcript.notes_append (t u : Transcript) :
    Transcript.notes (t ++ u) = t.notes ++ u.notes := by
  simp [Transcript.notes]

@[simp] theorem Transcript.isBroken_nil : Transcript.isBroken [] = false := rfl

@[simp] theorem Transcript.isBroken_append (t u : Transcript) :
    Transcript.isBroken (t ++ u) = (t.isBroken || u.isBroken) :=
  List.any_append

theorem Host.journal_answer (host : Host) (w : World) (r : Request) :
    (host.answer w r).2.journal = w.journal ++ r.notes := by
  cases r with
  | command i => rfl
  | note n => rfl
  | removeFile path | copyFile source target | writeFile path content | makeExecutable path =>
    simp only [answer, answer.changing, World.changed, Request.notes, List.append_nil]
    split <;> rfl
  | _ => simp [answer, Request.notes]

theorem Host.eq_command_of_answer_eq_none {host : Host} {w w' : World} {r : Request}
    (h : host.answer w r = (none, w')) : ∃ i, r = .command i := by
  cases r with
  | command i => exact ⟨i, rfl⟩
  | _ => cases congrArg Prod.fst h

/-- The command runner answers every command: with what the command left behind, or an error. -/
def Host.Answers (host : Host) : Prop :=
  ∀ i w, ∃ reply, (host.command i w).outcome = some reply

namespace Program

variable {α β : Type}

/-! ## Following a transcript -/

@[simp] theorem follows_done_iff {a : α} {t : Transcript} {o : Option α} :
    (done a).Follows t o ↔ t = [] ∧ o = some a := by
  constructor
  · intro h
    cases h
    exact ⟨rfl, rfl⟩
  · rintro ⟨rfl, rfl⟩
    exact .done a

@[simp] theorem follows_crash_iff {t : Transcript} {o : Option α} :
    (crash : Program α).Follows t o ↔ t = [] ∧ o = none := by
  constructor
  · intro h
    cases h
    exact ⟨rfl, rfl⟩
  · rintro ⟨rfl, rfl⟩
    exact .crash

theorem follows_note_iff {n : Note} {next : Unit → Program α} {t : Transcript} {o : Option α} :
    (ask (.note n) next).Follows t o ↔
      ∃ u : Transcript, t = ⟨.note n, some ()⟩ :: u ∧ (next ()).Follows u o := by
  constructor
  · intro h
    cases h with
    | answered rest => exact ⟨_, rfl, rest⟩
  · rintro ⟨u, rfl, rest⟩
    exact .answered rest

theorem Follows.bind {p : Program α} {f : α → Program β} {a : α} {t u : Transcript} {o : Option β}
    (h : p.Follows t (some a)) (g : (f a).Follows u o) : (p.bind f).Follows (t ++ u) o := by
  generalize ho : some a = end_ at h
  induction h with
  | done b =>
    cases ho
    exact g
  | crash => cases ho
  | answered _ ih => exact .answered (ih ho)
  | unanswered => cases ho

theorem Follows.bind_none {p : Program α} {f : α → Program β} {t : Transcript}
    (h : p.Follows t none) : (p.bind f).Follows t none := by
  generalize ho : none = end_ at h
  induction h with
  | done b => cases ho
  | crash => exact .crash
  | answered _ ih => exact .answered (ih ho)
  | unanswered => exact .unanswered

/-- A program with another one behind it either comes to a value, with which the other one goes on,
or breaks down before that. -/
theorem follows_bind_iff {p : Program α} {f : α → Program β} {t : Transcript} {o : Option β} :
    (p.bind f).Follows t o ↔
      (∃ t₁ t₂ a, t = t₁ ++ t₂ ∧ p.Follows t₁ (some a) ∧ (f a).Follows t₂ o) ∨
        (o = none ∧ p.Follows t none) := by
  constructor
  · intro h
    induction p generalizing t with
    | done a => exact .inl ⟨[], t, a, rfl, .done a, h⟩
    | crash =>
      obtain ⟨rfl, rfl⟩ := follows_crash_iff.mp h
      exact .inr ⟨rfl, .crash⟩
    | ask r next ih =>
      cases h with
      | answered rest =>
        rcases ih _ rest with ⟨t₁, t₂, a, rfl, h₁, h₂⟩ | ⟨rfl, h⟩
        · exact .inl ⟨_ :: t₁, t₂, a, rfl, .answered h₁, h₂⟩
        · exact .inr ⟨rfl, .answered h⟩
      | unanswered => exact .inr ⟨rfl, .unanswered⟩
  · rintro (⟨t₁, t₂, a, rfl, h₁, h₂⟩ | ⟨rfl, h⟩)
    · exact h₁.bind h₂
    · exact h.bind_none

/-- If a program follows two beginnings of one transcript, it ends after both in the same way. -/
theorem Follows.cut {p : Program α} {t₁ t₂ u₁ u₂ : Transcript} {o₁ o₂ : Option α}
    (h₁ : p.Follows t₁ o₁) (h₂ : p.Follows t₂ o₂) (h : t₁ ++ u₁ = t₂ ++ u₂) :
    t₁ = t₂ ∧ o₁ = o₂ := by
  induction h₁ generalizing t₂ with
  | done a =>
    obtain ⟨rfl, rfl⟩ := follows_done_iff.mp h₂
    exact ⟨rfl, rfl⟩
  | crash =>
    obtain ⟨rfl, rfl⟩ := follows_crash_iff.mp h₂
    exact ⟨rfl, rfl⟩
  | answered _ ih =>
    cases h₂ with
    | answered rest =>
      simp only [List.cons_append, List.cons.injEq, Exchange.mk.injEq, heq_eq_eq, true_and,
        Option.some.injEq] at h
      obtain ⟨rfl, h⟩ := h
      obtain ⟨rfl, rfl⟩ := ih rest h
      exact ⟨rfl, rfl⟩
    | unanswered => simp at h
  | unanswered =>
    cases h₂ with
    | answered rest => simp at h
    | unanswered => exact ⟨rfl, rfl⟩

theorem Follows.unique {p : Program α} {t : Transcript} {o₁ o₂ : Option α} (h₁ : p.Follows t o₁)
    (h₂ : p.Follows t o₂) : o₁ = o₂ := by
  have same : t ++ [] = t ++ [] := rfl
  exact (h₁.cut h₂ same).2

theorem run_request (host : Host) (r : Request) (w : World) :
    (request r).run host w = host.answer w r := by
  rw [request, Program.run]
  rcases host.answer w r with ⟨_ | reply, v⟩ <;> rfl

/-- A program that runs alone follows a transcript, and adds the notes of it to the journal. -/
theorem exists_follows_run (host : Host) (p : Program α) (w : World) :
    ∃ t, p.Follows t (p.run host w).1 ∧ (p.run host w).2.journal = w.journal ++ t.notes := by
  induction p generalizing w with
  | done a => exact ⟨[], .done a, by simp⟩
  | crash => exact ⟨[], .crash, by simp⟩
  | ask r next ih =>
    have journal := host.journal_answer w r
    rcases h : host.answer w r with ⟨_ | x, w'⟩ <;> simp only [run, h] at journal ⊢
    · obtain ⟨i, rfl⟩ := Host.eq_command_of_answer_eq_none h
      exact ⟨[⟨.command i, none⟩], .unanswered, by simpa using journal⟩
    · obtain ⟨t, follows, notes⟩ := ih x w'
      exact ⟨⟨r, some x⟩ :: t, .answered follows, by
        rw [notes, journal, Transcript.notes_cons, List.append_assoc]⟩

/-! ## What a program keeps to -/

theorem Obeys.mono {P P' : Request → Prop} {C C' : Prop} {Q Q' : α → Prop} {p : Program α}
    (h : p.Obeys P C Q) (hP : ∀ r, P r → P' r) (hC : C → C') (hQ : ∀ a, Q a → Q' a) :
    p.Obeys P' C' Q' := by
  induction p with
  | done a => exact hQ a h
  | crash => exact hC h
  | ask r next ih => exact ⟨hP r h.1, fun x => ih x (h.2 x)⟩

theorem obeys_true (p : Program α) : p.Obeys (fun _ => True) True fun _ => True := by
  induction p with
  | done a => trivial
  | crash => trivial
  | ask r next ih => exact ⟨trivial, ih⟩

theorem Obeys.bind {P : Request → Prop} {C : Prop} {Q : α → Prop} {R : β → Prop} {p : Program α}
    {f : α → Program β} (h : p.Obeys P C Q) (hf : ∀ a, Q a → (f a).Obeys P C R) :
    (p.bind f).Obeys P C R := by
  induction p with
  | done a => exact hf a h
  | crash => exact h
  | ask r next ih => exact ⟨h.1, fun x => ih x (h.2 x)⟩

theorem Follows.asks {P : Request → Prop} {C : Prop} {Q : α → Prop} {p : Program α}
    {t : Transcript} {o : Option α} (h : p.Follows t o) (obeys : p.Obeys P C Q) :
    ∀ e ∈ t, P e.request := by
  induction h with
  | done a => simp
  | crash => simp
  | answered _ ih => exact List.forall_mem_cons.mpr ⟨obeys.1, ih (obeys.2 _)⟩
  | unanswered => simpa using obeys.1

theorem Follows.ends {P : Request → Prop} {C : Prop} {Q : α → Prop} {p : Program α}
    {t : Transcript} {a : α} (h : p.Follows t (some a)) (obeys : p.Obeys P C Q) : Q a := by
  generalize ho : some a = end_ at h
  induction h with
  | done b =>
    cases ho
    exact obeys
  | crash => cases ho
  | answered _ ih => exact ih (obeys.2 _) ho
  | unanswered => cases ho

theorem Follows.isSome_iff {p : Program α} {t : Transcript} {o : Option α} (h : p.Follows t o)
    (steady : p.Steady) : o.isSome ↔ t.isBroken = false := by
  induction h with
  | done a => simp [Transcript.isBroken]
  | crash => exact steady.elim
  | answered _ ih => simpa [Transcript.isBroken] using ih (steady.2 _)
  | unanswered => simp [Transcript.isBroken]

theorem Returns.bind {host : Host} {p : Program α} {f : α → Program β} (h : p.Returns host)
    (hf : ∀ a, (f a).Returns host) : (p.bind f).Returns host := by
  induction p with
  | done a => exact hf a
  | crash => exact h.elim
  | ask r next ih =>
    intro w
    obtain ⟨x, answered, rest⟩ := h w
    exact ⟨x, answered, ih x rest⟩

theorem Returns.run {host : Host} {p : Program α} (h : p.Returns host) (w : World) :
    ∃ a, (p.run host w).1 = some a := by
  induction p generalizing w with
  | done a => exact ⟨a, rfl⟩
  | crash => exact h.elim
  | ask r next ih =>
    obtain ⟨x, answered, returns⟩ := h w
    rcases hw : host.answer w r with ⟨o, w'⟩
    obtain rfl : o = some x := by rw [hw] at answered; exact answered
    simpa [Program.run, hw] using ih x returns w'

/-- If the command runner answers every command, a program that breaks down only with it comes to a
value. -/
theorem Steady.returns {host : Host} {p : Program α} (steady : p.Steady) (answers : host.Answers) :
    p.Returns host := by
  induction p with
  | done a => trivial
  | crash => exact steady.elim
  | ask r next ih =>
    intro w
    rcases h : host.answer w r with ⟨_ | x, w'⟩
    · obtain ⟨i, rfl⟩ := Host.eq_command_of_answer_eq_none h
      obtain ⟨reply, answered⟩ := answers i w
      exact absurd ((congrArg Prod.fst h).symm.trans answered) (by simp)
    · exact ⟨x, rfl, ih x (steady.2 x)⟩

end Program
end CoverageMatrix
