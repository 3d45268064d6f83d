import CoverageMatrix.Proofs.Program.Transcript
import Mathlib.Data.List.Forall2

/-!
# Programs that differ in a secret

Two programs may differ in the identifier with which they call the reporting service, and in the
value of one variable, which only commands of the helper may have. If the surroundings ignore both,
one of the programs does step by step what the other does (`Program.AlikeUpTo.run`).
-/
namespace CoverageMatrix

/-- What the commands of the helper are called. -/
def Invocation.IsHelper (i : Invocation) : Prop :=
  i.label = "reporter before-build" ∨ i.label = "reporter after-build"

/-- Two commands are the same, or the helper's with different values for a variable. -/
inductive Invocation.AlikeUpTo (name : String) : Invocation → Invocation → Prop
  | same (i : Invocation) : AlikeUpTo name i i
  | helper {i : Invocation} (h : i.IsHelper) (value other : String) :
      AlikeUpTo name (i.withVar name value) (i.withVar name other)

/-- Two calls to the reporting service say the same, maybe about different projects. -/
inductive SessionCall.AlikeUpToId : SessionCall → SessionCall → Prop
  | opening (id other : ReporterId) (scope : SessionScope) :
      AlikeUpToId (.opening id scope) (.opening other scope)
  | closing (id other : ReporterId) (scope : SessionScope) (code : Int) :
      AlikeUpToId (.closing id scope code) (.closing other scope code)

inductive Note.AlikeUpTo (name : String) : Note → Note → Prop
  | command {i j : Invocation} (h : i.AlikeUpTo name j) : AlikeUpTo name (.command i) (.command j)
  | session {call call' : SessionCall} (h : call.AlikeUpToId call') :
      AlikeUpTo name (.session call) (.session call')
  | same (n : Note) : AlikeUpTo name n n

structure World.AlikeUpTo (name : String) (w v : World) : Prop where
  files : w.files = v.files
  journal : List.Forall₂ (Note.AlikeUpTo name) w.journal v.journal

/-- The surroundings answer alike, with the same effects, whatever the identifier and the value of
the variable are, and whatever they were before. -/
structure Host.Ignores (host : Host) (name : String) : Prop where
  command : ∀ (i j : Invocation) (w v : World), i.AlikeUpTo name j → w.AlikeUpTo name v →
    host.command i w = host.command j v
  service : ∀ (call call' : SessionCall) (w v : World), call.AlikeUpToId call' →
    w.AlikeUpTo name v → host.service call w = host.service call' v
  download : ∀ (url : String) (w v : World), w.AlikeUpTo name v →
    host.download url w = host.download url v

/-- Two programs do the same up to the identifier and the value of a variable, and end with related
values. -/
inductive Program.AlikeUpTo (name : String) {α β : Type} (V : α → β → Prop) :
    Program α → Program β → Prop
  | done {a : α} {b : β} (h : V a b) : AlikeUpTo name V (.done a) (.done b)
  | crash : AlikeUpTo name V .crash .crash
  | same {r : Request} {next : r.Answer → Program α} {next' : r.Answer → Program β}
      (rest : ∀ x, AlikeUpTo name V (next x) (next' x)) :
      AlikeUpTo name V (.ask r next) (.ask r next')
  | command {i j : Invocation} {next : Except PipelineError CommandOutput → Program α}
      {next' : Except PipelineError CommandOutput → Program β} (h : i.AlikeUpTo name j)
      (rest : ∀ x, AlikeUpTo name V (next x) (next' x)) :
      AlikeUpTo name V (.ask (.command i) next) (.ask (.command j) next')
  | service {call call' : SessionCall} {next : Except PipelineError Unit → Program α}
      {next' : Except PipelineError Unit → Program β} (h : call.AlikeUpToId call')
      (rest : ∀ x, AlikeUpTo name V (next x) (next' x)) :
      AlikeUpTo name V (.ask (.service call) next) (.ask (.service call') next')
  | note {n n' : Note} {next : Unit → Program α} {next' : Unit → Program β}
      (h : n.AlikeUpTo name n') (rest : ∀ x, AlikeUpTo name V (next x) (next' x)) :
      AlikeUpTo name V (.ask (.note n) next) (.ask (.note n') next')

variable {name : String}

/-! ## Worlds -/

namespace World

variable {w v : World}

theorem AlikeUpTo.refl (name : String) (w : World) : w.AlikeUpTo name w :=
  ⟨rfl, List.forall₂_same.mpr fun n _ => .same n⟩

theorem AlikeUpTo.noted (h : w.AlikeUpTo name v) {n n' : Note} (alike : n.AlikeUpTo name n') :
    (w.noted n).AlikeUpTo name (v.noted n') :=
  ⟨h.files, List.rel_append h.journal (.cons alike .nil)⟩

/-- A note that is in a journal whenever it is alike to one of its notes is in both journals or in
neither. -/
theorem AlikeUpTo.contains_eq (h : w.AlikeUpTo name v) {n : Note}
    (plain : ∀ k k' : Note, k.AlikeUpTo name k' → (n = k ↔ n = k')) :
    w.journal.contains n = v.journal.contains n := by
  obtain ⟨-, journal⟩ := h
  generalize w.journal = notes at journal
  generalize v.journal = notes' at journal
  induction journal with
  | nil => rfl
  | cons alike _ ih => simp only [List.contains_cons, ih, Bool.beq_eq_decide_eq, plain _ _ alike]

theorem AlikeUpTo.contains_acquired (h : w.AlikeUpTo name v) (job : JobId) :
    w.journal.contains (.acquired job) = v.journal.contains (.acquired job) := by
  refine h.contains_eq fun k k' alike => ?_
  cases alike with
  | command | session => simp
  | same => rfl

theorem AlikeUpTo.hasBegunClosing_eq (h : w.AlikeUpTo name v) (job : JobId) :
    w.hasBegunClosing job = v.hasBegunClosing job := by
  refine h.contains_eq fun k k' alike => ?_
  cases alike with
  | command | session => simp
  | same => rfl

/-- Of the commands that were handed over only the helper's can differ. -/
theorem AlikeUpTo.invocations (h : w.AlikeUpTo name v) :
    List.Forall₂ (Invocation.AlikeUpTo name) w.invocations v.invocations := by
  refine List.rel_filterMap (fun n n' alike => ?_) h.journal
  cases alike with
  | command h => exact .some h
  | session => exact .none
  | same n =>
    cases n with
    | command i => exact .some (.same i)
    | session | acquired | closing => exact .none

theorem AlikeUpTo.changed (h : w.AlikeUpTo name v) (r : Except Files.Fault Files.Tree) :
    (w.changed r).1 = (v.changed r).1 ∧ (w.changed r).2.AlikeUpTo name (v.changed r).2 := by
  cases r with
  | error fault => exact ⟨rfl, h⟩
  | ok files => exact ⟨rfl, rfl, h.journal⟩

end World

/-! ## Answers -/

namespace Host.Ignores

variable {host : Host} {w v : World}

theorem answer_command (ignores : host.Ignores name) {i j : Invocation} (h : i.AlikeUpTo name j)
    (alike : w.AlikeUpTo name v) :
    (host.answer w (.command i)).1 = (host.answer v (.command j)).1 ∧
      (host.answer w (.command i)).2.AlikeUpTo name (host.answer v (.command j)).2 := by
  have same := ignores.command i j w v h alike
  have noted : List.Forall₂ (Note.AlikeUpTo name) (w.journal ++ [.command i])
      (v.journal ++ [.command j]) := (alike.noted (.command h)).journal
  simp only [answer, same]
  exact ⟨rfl, rfl, noted⟩

theorem answer_service (ignores : host.Ignores name) {call call' : SessionCall}
    (h : call.AlikeUpToId call') (alike : w.AlikeUpTo name v) :
    (host.answer w (.service call)).1 = (host.answer v (.service call')).1 ∧
      (host.answer w (.service call)).2.AlikeUpTo name (host.answer v (.service call')).2 :=
  ⟨congrArg some (ignores.service call call' w v h alike), alike⟩

theorem answer_same (ignores : host.Ignores name) (r : Request) (alike : w.AlikeUpTo name v) :
    (host.answer w r).1 = (host.answer v r).1 ∧
      (host.answer w r).2.AlikeUpTo name (host.answer v r).2 := by
  cases r with
  | command i => exact ignores.answer_command (.same i) alike
  | service call =>
    refine ⟨congrArg some (ignores.service call call w v ?_ alike), alike⟩
    cases call with
    | opening id scope => exact .opening id id scope
    | closing id scope code => exact .closing id id scope code
  | download url => exact ⟨congrArg some (ignores.download url w v alike), alike⟩
  | note n => exact ⟨rfl, alike.noted (.same n)⟩
  | wasAcquired job => exact ⟨congrArg some (alike.contains_acquired job), alike⟩
  | readFile p | isPresent p => exact ⟨by simp only [answer, alike.files], alike⟩
  | removeFile p | copyFile p q | writeFile p content | makeExecutable p =>
    simp only [answer, answer.changing, alike.files]
    exact ⟨congrArg some (alike.changed _).1, (alike.changed _).2⟩

end Host.Ignores

/-! ## Programs -/

namespace Program

variable {α β γ δ : Type} {V : α → β → Prop}

theorem AlikeUpTo.refl (name : String) (p : Program α) : p.AlikeUpTo name Eq p := by
  induction p with
  | done a => exact .done rfl
  | crash => exact .crash
  | ask r next ih => exact .same ih

theorem AlikeUpTo.bind {W : γ → δ → Prop} {p : Program α} {q : Program β} {f : α → Program γ}
    {g : β → Program δ} (h : p.AlikeUpTo name V q)
    (rest : ∀ a b, V a b → (f a).AlikeUpTo name W (g b)) :
    (p.bind f).AlikeUpTo name W (q.bind g) := by
  induction h with
  | done related => exact rest _ _ related
  | crash => exact .crash
  | same _ ih => exact .same ih
  | command alike _ ih => exact .command alike ih
  | service alike _ ih => exact .service alike ih
  | note alike _ ih => exact .note alike ih

/-- Two answers that are the same, in worlds that are alike. -/
inductive AnsweredAlike (name : String) {A : Type} : Option A × World → Option A × World → Prop
  | none {w v : World} (after : w.AlikeUpTo name v) : AnsweredAlike name (none, w) (none, v)
  | some {w v : World} (x : A) (after : w.AlikeUpTo name v) :
      AnsweredAlike name (some x, w) (some x, v)

theorem answeredAlike {A : Type} {r r' : Option A × World}
    (h : r.1 = r'.1 ∧ r.2.AlikeUpTo name r'.2) : AnsweredAlike name r r' := by
  obtain ⟨o, w⟩ := r
  obtain ⟨o', v⟩ := r'
  obtain ⟨rfl, after⟩ := h
  cases o with
  | none => exact .none after
  | some x => exact .some x after

/-- How programs go on whose requests are alike: both are left without an answer, or both go on to
programs that are alike again. -/
theorem AlikeUpTo.answer {host : Host} (ignores : host.Ignores name) {r : Request}
    {next : r.Answer → Program α} {q : Program β} (h : (ask r next).AlikeUpTo name V q)
    {w v : World} (alike : w.AlikeUpTo name v) :
    ∃ r' next', q = ask r' next' ∧
      ((∃ w' v', host.answer w r = (none, w') ∧ host.answer v r' = (none, v') ∧
          w'.AlikeUpTo name v') ∨
        ∃ x x' w' v', host.answer w r = (some x, w') ∧ host.answer v r' = (some x', v') ∧
          (next x).AlikeUpTo name V (next' x') ∧ w'.AlikeUpTo name v') := by
  cases h with
  | same rest =>
    refine ⟨_, _, rfl, ?_⟩
    have answered := answeredAlike (ignores.answer_same r alike)
    generalize host.answer w r = a at answered ⊢
    generalize host.answer v r = b at answered ⊢
    cases answered with
    | none after => exact .inl ⟨_, _, rfl, rfl, after⟩
    | some x after => exact .inr ⟨x, x, _, _, rfl, rfl, rest x, after⟩
  | @command i j _ _ h rest =>
    refine ⟨_, _, rfl, ?_⟩
    have answered : AnsweredAlike name (A := Except PipelineError CommandOutput)
        (host.answer w (.command i)) (host.answer v (.command j)) :=
      answeredAlike (ignores.answer_command h alike)
    generalize host.answer w (.command i) = a at answered ⊢
    generalize host.answer v (.command j) = b at answered ⊢
    cases answered with
    | none after => exact .inl ⟨_, _, rfl, rfl, after⟩
    | some x after => exact .inr ⟨x, x, _, _, rfl, rfl, rest x, after⟩
  | @service call call' _ _ h rest =>
    refine ⟨_, _, rfl, ?_⟩
    have answered : AnsweredAlike name (A := Except PipelineError Unit)
        (host.answer w (.service call)) (host.answer v (.service call')) :=
      answeredAlike (ignores.answer_service h alike)
    generalize host.answer w (.service call) = a at answered ⊢
    generalize host.answer v (.service call') = b at answered ⊢
    cases answered with
    | none after => exact .inl ⟨_, _, rfl, rfl, after⟩
    | some x after => exact .inr ⟨x, x, _, _, rfl, rfl, rest x, after⟩
  | note h rest => exact ⟨_, _, rfl, .inr ⟨(), (), _, _, rfl, rfl, rest (), alike.noted h⟩⟩

/-- Programs that ask alike things come to the same value in worlds that are alike. -/
theorem AlikeUpTo.run {host : Host} (ignores : host.Ignores name) {p q : Program α}
    (h : p.AlikeUpTo name Eq q) {w v : World} (alike : w.AlikeUpTo name v) :
    (p.run host w).1 = (q.run host v).1 ∧ (p.run host w).2.AlikeUpTo name (q.run host v).2 := by
  induction p generalizing q w v with
  | done a =>
    cases h with
    | done eq => exact ⟨congrArg some eq, alike⟩
  | crash =>
    cases h
    exact ⟨rfl, alike⟩
  | ask r next ih =>
    obtain ⟨r', next', rfl, ⟨w', v', hw, hv, after⟩ | ⟨x, x', w', v', hw, hv, rest, after⟩⟩ :=
      h.answer ignores alike
    · simp only [Program.run, hw, hv]
      exact ⟨trivial, after⟩
    · simp only [Program.run, hw, hv]
      exact ih x rest after

end Program
end CoverageMatrix
