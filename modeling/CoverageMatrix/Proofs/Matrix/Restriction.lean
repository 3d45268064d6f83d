import CoverageMatrix.Proofs.Matrix.Jobs

/-!
# Restricting a matrix again and again

A request to keep only some versions is carried out in place and changes nothing unless it is
granted (`Config.run_restrict`). After a row of requests the versions are those that every granted
one asked for, and a valid configuration stays valid as long as none of these asked for nothing
(`Config.restricted_matrix`).
-/
namespace CoverageMatrix.Config

/-- The configuration with other versions. -/
def withVersions (c : Config) (versions : List String) : Config :=
  { c with matrix := { c.matrix with versions := versions } }

/-- Refuses a version that is not part of the matrix. -/
def requireVersion (v : String) : EStateM PipelineError Config Unit := do
  if v ∉ (← get).matrix.versions then throw (.invalidConfig (.foreignVersion v))

/-- Restricts a configuration in place: every requested version is looked up before anything
changes. -/
def restrict (request : List String) : EStateM PipelineError Config Unit := do
  request.forM requireVersion
  modify fun c => c.withVersions (c.matrix.versions.filter (· ∈ request))

/-- What a request leaves, granted or not. -/
def afterRequest (c : Config) (request : List String) : Config :=
  match (restrict request).run c with
  | .ok _ c' | .error _ c' => c'

/-- What a row of requests leaves. -/
def afterRequests (c : Config) (requests : List (List String)) : Config :=
  requests.foldl afterRequest c

/-- The granted requests of a row. Each finds what the ones before it left. -/
def granted (c : Config) : List (List String) → List (List String)
  | [] => []
  | request :: rest =>
    match (restrict request).run c with
    | .ok _ c' => request :: c'.granted rest
    | .error _ c' => c'.granted rest

variable {c : Config} {request : List String} {requests : List (List String)}

/-! ## One request -/

theorem run_requireVersion (c : Config) (v : String) : (requireVersion v).run c =
    if v ∈ c.matrix.versions then .ok () c
    else .error (.invalidConfig (.foreignVersion v)) c := by
  have run : (requireVersion v).run c =
      (if v ∉ c.matrix.versions then throw (.invalidConfig (.foreignVersion v))
        else pure () : EStateM PipelineError Config Unit).run c := rfl
  rw [run]
  by_cases known : v ∈ c.matrix.versions
  · rw [if_pos known, if_neg (not_not_intro known)]
    rfl
  · rw [if_neg known, if_pos known]
    rfl

/-- The first version that is not part of the matrix ends the look-up, and none changes anything. -/
theorem run_requireVersions (c : Config) (request : List String) :
    (request.forM requireVersion).run c =
      match request.find? (· ∉ c.matrix.versions) with
      | some v => .error (.invalidConfig (.foreignVersion v)) c
      | none => .ok () c := by
  induction request with
  | nil => rfl
  | cons v rest ih =>
    have first := run_requireVersion c v
    rw [List.forM_eq_forM] at ih ⊢
    rw [List.forM_cons, EStateM.run_bind, first]
    by_cases known : v ∈ c.matrix.versions
    · rw [List.find?_cons_of_neg (by simpa using known), if_pos known]
      exact ih
    · rw [List.find?_cons_of_pos (by simpa using known), if_neg known]

/-- A request in place comes to what the configuration is restricted to, or leaves it alone. -/
theorem run_restrict (c : Config) (request : List String) : (restrict request).run c =
    match c.restrictVersions request with
    | .ok c' => .ok () c'
    | .error e => .error e c := by
  rw [restrict, EStateM.run_bind, run_requireVersions, restrictVersions]
  cases request.find? (· ∉ c.matrix.versions) with
  | none => rfl
  | some v => rfl

theorem restrictVersions_eq_ok_iff {c' : Config} : c.restrictVersions request = .ok c' ↔
    (∀ v ∈ request, v ∈ c.matrix.versions) ∧
      c' = c.withVersions (c.matrix.versions.filter (· ∈ request)) := by
  rw [restrictVersions]
  cases found : request.find? (· ∉ c.matrix.versions) with
  | none =>
    have known : ∀ v ∈ request, v ∈ c.matrix.versions := by
      intro v mem
      simpa using List.find?_eq_none.mp found v mem
    rw [Except.ok.injEq, eq_comm]
    exact (and_iff_right known).symm
  | some v =>
    have foreign : v ∉ c.matrix.versions := by simpa using List.find?_some found
    have mem := List.mem_of_find?_eq_some found
    constructor
    · intro refused
      cases refused
    · rintro ⟨known, -⟩
      exact absurd (known v mem) foreign

/-- A request is granted if it asks for versions of the matrix only, and else changes nothing. -/
theorem run_restrict_cases (c : Config) (request : List String) :
    ((∀ v ∈ request, v ∈ c.matrix.versions) ∧ (restrict request).run c =
      .ok () (c.withVersions (c.matrix.versions.filter (· ∈ request)))) ∨
    (¬(∀ v ∈ request, v ∈ c.matrix.versions) ∧ ∃ e, (restrict request).run c = .error e c) := by
  rw [run_restrict]
  cases restricted : c.restrictVersions request with
  | ok c' =>
    obtain ⟨known, rfl⟩ := restrictVersions_eq_ok_iff.mp restricted
    exact .inl ⟨known, rfl⟩
  | error e =>
    refine .inr ⟨fun known => ?_, e, rfl⟩
    rw [restrictVersions_eq_ok_iff.mpr ⟨known, rfl⟩] at restricted
    cases restricted

/-! ## A row of requests -/

@[simp] theorem versions_withVersions (c : Config) (versions : List String) :
    (c.withVersions versions).matrix.versions = versions := rfl

@[simp] theorem withVersions_withVersions (c : Config) (versions more : List String) :
    (c.withVersions versions).withVersions more = c.withVersions more := rfl

@[simp] theorem withVersions_self (c : Config) : c.withVersions c.matrix.versions = c := rfl

/-- The versions are those that every granted request asked for. -/
theorem afterRequests_eq (c : Config) (requests : List (List String)) : c.afterRequests requests =
    c.withVersions (c.matrix.versions.filter fun v => ∀ r ∈ c.granted requests, v ∈ r) := by
  induction requests generalizing c with
  | nil => simp [afterRequests, granted]
  | cons request rest ih =>
    have step : c.afterRequests (request :: rest) = (c.afterRequest request).afterRequests rest := rfl
    rw [step, ih, granted, afterRequest]
    rcases run_restrict_cases c request with ⟨-, run⟩ | ⟨-, e, run⟩
    · rw [run]
      dsimp only
      rw [versions_withVersions, withVersions_withVersions, List.filter_filter]
      refine congrArg c.withVersions (List.filter_congr fun v _ => ?_)
      rw [Bool.and_comm]
      simp
    · rw [run]

/-- A granted request keeps a configuration valid unless it asks for nothing. -/
theorem IsValid.withVersions_filter (valid : c.IsValid) (some_ : request ≠ [])
    (known : ∀ v ∈ request, v ∈ c.matrix.versions) :
    (c.withVersions (c.matrix.versions.filter (· ∈ request))).IsValid where
  someVersion := by
    obtain ⟨v, mem⟩ := List.exists_mem_of_ne_nil _ some_
    refine List.ne_nil_of_mem (a := v) ?_
    exact List.mem_filter.mpr ⟨known v mem, by simpa using mem⟩
  named := by
    intro v mem
    exact valid.named v (List.mem_filter.mp mem).1
  distinct := valid.distinct.filter _
  slots := valid.slots
  commands := valid.commands
  targets := valid.targets
  coverageVariable := valid.coverageVariable
  helperPath := valid.helperPath

theorem IsValid.afterRequests (valid : c.IsValid) (some_ : ∀ r ∈ c.granted requests, r ≠ []) :
    (c.afterRequests requests).IsValid := by
  induction requests generalizing c with
  | nil => exact valid
  | cons request rest ih =>
    have step : c.afterRequests (request :: rest) = (c.afterRequest request).afterRequests rest := rfl
    rw [step, afterRequest]
    rw [granted] at some_
    rcases run_restrict_cases c request with ⟨known, run⟩ | ⟨-, e, run⟩
    · rw [run] at some_ ⊢
      obtain ⟨first, more⟩ := List.forall_mem_cons.mp some_
      exact ih (valid.withVersions_filter first known) more
    · rw [run] at some_ ⊢
      exact ih valid some_

/-! ## The jobs that are left -/

theorem map_number_jobsFrom (number : Nat) (versions : List String) :
    (c.jobsFrom number versions).map (·.number) = List.range' number versions.length := by
  induction versions generalizing number with
  | nil => rfl
  | cons v rest ih => exact congrArg _ (ih (number + 1))

theorem map_version_jobsFrom (number : Nat) (versions : List String) :
    (c.jobsFrom number versions).map (·.version) = versions := by
  induction versions generalizing number with
  | nil => rfl
  | cons v rest ih => exact congrArg _ (ih (number + 1))

/-- After a row of requests to restrict a configuration, each granted exactly if the versions were
part of the matrix then and changing nothing otherwise, the versions are those of the original list
that every granted request asked for. A valid configuration of which something was asked each time
still is valid and has one job for each version that is left, with a name that it had in the whole
matrix. -/
theorem restricted_matrix (c : Config) (requests : List (List String)) :
    (∀ before request after, requests = before ++ request :: after →
      let d := c.afterRequests before
      (∀ d', (restrict request).run d = .ok () d' ↔ d.restrictVersions request = .ok d') ∧
      ((∃ d', (restrict request).run d = .ok () d') ↔ ∀ v ∈ request, v ∈ d.matrix.versions) ∧
      ∀ e d', (restrict request).run d = .error e d' → d' = d) ∧
    c.afterRequests requests =
      c.withVersions (c.matrix.versions.filter fun v => ∀ r ∈ c.granted requests, v ∈ r) ∧
    (c.validate = .ok () → (∀ r ∈ c.granted requests, r ≠ []) →
      let d := c.afterRequests requests
      d.validate = .ok () ∧ ∃ full jobs, c.expand = .ok full ∧ d.expand = .ok jobs ∧
        jobs.map (·.version) = d.matrix.versions ∧
        jobs.map (·.number) = List.range' 1 d.matrix.versions.length ∧
        jobs.map (·.id) = d.matrix.versions.map (⟨c.matrix.interpreter ++ "-" ++ ·⟩) ∧
        (jobs.map (·.id)).Nodup ∧ ∀ j ∈ jobs, ∃ i ∈ full, i.id = j.id) := by
  refine ⟨?_, afterRequests_eq c requests, ?_⟩
  · intro before request after _ d
    refine ⟨fun d' => ?_, ?_⟩
    · rw [run_restrict]
      cases d.restrictVersions request <;> simp
    rcases run_restrict_cases d request with ⟨known, run⟩ | ⟨foreign, e, run⟩
    · rw [run]
      exact ⟨iff_of_true ⟨_, rfl⟩ known, fun e d' refused => by cases refused⟩
    · rw [run]
      refine ⟨iff_of_false (fun granted => ?_) foreign, fun e' d' refused => ?_⟩
      · obtain ⟨d', granted⟩ := granted
        cases granted
      · cases refused
        rfl
  · intro valid some_ d
    have still : d.validate = .ok () :=
      validate_eq_ok_iff.mpr ((validate_eq_ok_iff.mp valid).afterRequests some_)
    have left : d = c.withVersions _ := afterRequests_eq c requests
    have ids : d.jobs.map (·.id) =
        d.matrix.versions.map (⟨c.matrix.interpreter ++ "-" ++ ·⟩) := by
      have own : d.matrix.interpreter = c.matrix.interpreter := by rw [left]; rfl
      rw [jobs, map_id_jobsFrom, own]
    refine ⟨still, c.jobs, d.jobs, expand_eq_ok_iff.mpr ⟨valid, rfl⟩,
      expand_eq_ok_iff.mpr ⟨still, rfl⟩, map_version_jobsFrom 1 _, map_number_jobsFrom 1 _, ids,
      nodup_ids_of_valid still, ?_⟩
    intro j mem
    have named : j.id ∈ d.matrix.versions.map fun v => JobId.mk (c.matrix.interpreter ++ "-" ++ v) :=
      ids ▸ List.mem_map_of_mem mem
    obtain ⟨v, kept, name⟩ := List.mem_map.mp named
    have old : v ∈ c.matrix.versions := by
      rw [left] at kept
      exact (List.mem_filter.mp kept).1
    have full : j.id ∈ c.jobs.map (·.id) := by
      rw [jobs, map_id_jobsFrom, ← name]
      exact List.mem_map_of_mem old
    exact List.mem_map.mp full

def fourVersions : Config :=
  { matrix := { versions := ["2.7", "3.6", "3.8", "pypy"] } }

/-- A matrix that is asked for three versions, then for one that it has no longer, then for two. -/
theorem restricted_matrix_refused :
    let requests := [["3.8", "3.6", "2.7"], ["3.8", "pypy"], ["3.8", "2.7", "3.8"]]
    let left := fourVersions.afterRequests requests
    fourVersions.validate = .ok () ∧
      fourVersions.granted requests = [["3.8", "3.6", "2.7"], ["3.8", "2.7", "3.8"]] ∧
      left.matrix.versions = ["2.7", "3.8"] ∧ left.validate = .ok () ∧
      ∃ jobs, left.expand = .ok jobs ∧ jobs.map (·.id) = [⟨"python-2.7"⟩, ⟨"python-3.8"⟩] := by
  intro requests left
  have valid : fourVersions.validate = .ok () := by rfl
  have granted : fourVersions.granted requests =
      [["3.8", "3.6", "2.7"], ["3.8", "2.7", "3.8"]] := by
    decide
  have versions : left.matrix.versions = ["2.7", "3.8"] := by decide
  have some_ : ∀ r ∈ fourVersions.granted requests, r ≠ [] := by
    rw [granted]
    decide
  obtain ⟨-, -, kept⟩ := restricted_matrix fourVersions requests
  obtain ⟨still, full, jobs, -, expanded, -, -, ids, -⟩ := kept valid some_
  refine ⟨valid, granted, versions, still, jobs, expanded, ids.trans ?_⟩
  exact congrArg (List.map _) versions

end CoverageMatrix.Config
