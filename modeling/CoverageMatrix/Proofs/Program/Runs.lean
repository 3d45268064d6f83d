import CoverageMatrix.Proofs.Program.Transcript

/-!
# Runs of a program side by side

What two runs of one program have in common when they begin in worlds that are alike
(`Program.RunsAlike`), and what a run meets on its way (`Program.encounters`). A condition on the
requests of a program counts only where its run can come to (`Program.Asks`).
-/
namespace CoverageMatrix.Program

variable {α β : Type} {host : Host}

/-- Every request that a program can come to, with answers that it can get, meets a condition. -/
def Asks (host : Host) (P : Request → Prop) : Program α → Prop
  | done _ => True
  | crash => True
  | ask r next => P r ∧ ∀ w x, (host.answer w r).1 = some x → (next x).Asks host P

/-- Two runs of a program that begin in related worlds come to the same value, and in the worlds
that they leave the value has what `S` says. -/
def RunsAlike (host : Host) (R : World → World → Prop) (p : Program α)
    (S : Option α → World → World → Prop) : Prop :=
  ∀ w v, R w v → (p.run host w).1 = (p.run host v).1 ∧
    S (p.run host w).1 (p.run host w).2 (p.run host v).2

/-- The requests that a run makes, in order, each with the world in which it is made. -/
def encounters (host : Host) : Program α → World → List (Request × World)
  | done _, _ => []
  | crash, _ => []
  | ask r next, w =>
    (r, w) :: match host.answer w r with
      | (some x, w') => (next x).encounters host w'
      | (none, _) => []

/-! ## Conditions on requests -/

theorem Obeys.asks {P : Request → Prop} {C : Prop} {Q : α → Prop} {p : Program α}
    (h : p.Obeys P C Q) : p.Asks host P := by
  induction p with
  | done a => trivial
  | crash => trivial
  | ask r next ih => exact ⟨h.1, fun _ x _ => ih x (h.2 x)⟩

theorem Asks.mono {P P' : Request → Prop} {p : Program α} (h : p.Asks host P)
    (hP : ∀ r, P r → P' r) : p.Asks host P' := by
  induction p with
  | done a => trivial
  | crash => trivial
  | ask r next ih => exact ⟨hP r h.1, fun w x answered => ih x (h.2 w x answered)⟩

theorem Asks.bind {P : Request → Prop} {p : Program α} {f : α → Program β} (h : p.Asks host P)
    (hf : ∀ a, (f a).Asks host P) : (p.bind f).Asks host P := by
  induction p with
  | done a => exact hf a
  | crash => trivial
  | ask r next ih => exact ⟨h.1, fun w x answered => ih x (h.2 w x answered)⟩

/-- A relation that every request of a program keeps holds between the worlds around its run. -/
theorem Asks.run_keeps {R : World → World → Prop} (refl : ∀ w, R w w)
    (trans : ∀ a b c, R a b → R b c → R a c) {p : Program α}
    (h : p.Asks host fun r => ∀ w, R w (host.answer w r).2) (w : World) : R w (p.run host w).2 := by
  induction p generalizing w with
  | done a => exact refl w
  | crash => exact refl w
  | ask r next ih =>
    have first := h.1 w
    rcases answered : host.answer w r with ⟨_ | x, w'⟩ <;> simp only [run, answered] at first ⊢
    · exact first
    · exact trans _ _ _ first (ih x (h.2 w x (by rw [answered])) w')

/-! ## Two runs -/

theorem RunsAlike.mono {R R' : World → World → Prop} {S S' : Option α → World → World → Prop}
    {p : Program α} (h : RunsAlike host R p S) (hR : ∀ w v, R' w v → R w v)
    (hS : ∀ o w v, S o w v → S' o w v) : RunsAlike host R' p S' := by
  intro w v related
  obtain ⟨same, after⟩ := h w v (hR w v related)
  exact ⟨same, hS _ _ _ after⟩

theorem runsAlike_done {R : World → World → Prop} {S : Option α → World → World → Prop} {a : α}
    (h : ∀ w v, R w v → S (some a) w v) : RunsAlike host R (done a) S :=
  fun w v related => ⟨rfl, h w v related⟩

theorem RunsAlike.bind {R : World → World → Prop} {S : Option α → World → World → Prop}
    {T : Option β → World → World → Prop} {p : Program α} {f : α → Program β}
    (h : RunsAlike host R p S) (hf : ∀ a, RunsAlike host (S (some a)) (f a) T)
    (broken : ∀ w v, S none w v → T none w v) : RunsAlike host R (p.bind f) T := by
  intro w v related
  obtain ⟨same, after⟩ := h w v related
  rw [run_bind, run_bind]
  rcases hw : p.run host w with ⟨o, w'⟩
  rcases hv : p.run host v with ⟨o', v'⟩
  rw [hw, hv] at same after
  obtain rfl : o = o' := same
  cases o with
  | none => exact ⟨rfl, broken w' v' after⟩
  | some a => exact hf a w' v' after

/-- A program whose requests get the same answers in related worlds, and leave them related. -/
theorem Asks.runsAlike {R : World → World → Prop} {p : Program α}
    (h : p.Asks host fun r => ∀ w v, R w v →
      (host.answer w r).1 = (host.answer v r).1 ∧ R (host.answer w r).2 (host.answer v r).2) :
    RunsAlike host R p fun _ => R := by
  induction p with
  | done a => exact runsAlike_done fun _ _ related => related
  | crash => exact fun w v related => ⟨rfl, related⟩
  | ask r next ih =>
    intro w v related
    obtain ⟨same, after⟩ := h.1 w v related
    rcases hw : host.answer w r with ⟨o, w'⟩
    rcases hv : host.answer v r with ⟨o', v'⟩
    rw [hw, hv] at same after
    obtain rfl : o = o' := same
    cases o with
    | none => simpa [run, hw, hv] using after
    | some x =>
      simp only [run, hw, hv]
      exact ih x (h.2 w x (by rw [hw])) w' v' after

/-! ## What a run meets -/

theorem Asks.encounters {P : Request → Prop} {p : Program α} (h : p.Asks host P) (w : World) :
    ∀ e ∈ p.encounters host w, P e.1 := by
  induction p generalizing w with
  | done a => simp [Program.encounters]
  | crash => simp [Program.encounters]
  | ask r next ih =>
    rw [Program.encounters]
    refine List.forall_mem_cons.mpr ⟨h.1, ?_⟩
    rcases answered : host.answer w r with ⟨_ | x, w'⟩
    · exact List.forall_mem_nil _
    · exact ih x (h.2 w x (by rw [answered])) w'

theorem encounters_bind (p : Program α) (f : α → Program β) (w : World) :
    (p.bind f).encounters host w = p.encounters host w ++
      match p.run host w with
      | (some a, w') => (f a).encounters host w'
      | (none, _) => [] := by
  induction p generalizing w with
  | done a => rfl
  | crash => rfl
  | ask r next ih =>
    simp only [Program.bind, Program.encounters, run, List.cons_append]
    rcases host.answer w r with ⟨_ | x, w'⟩
    · rfl
    · exact congrArg _ (ih x w')

end CoverageMatrix.Program
