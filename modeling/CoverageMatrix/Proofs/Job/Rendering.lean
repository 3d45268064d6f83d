import CoverageMatrix.Proofs.Matrix.Files
import CoverageMatrix.Proofs.Text.Placeholders

/-!
# The placeholders of a command

A job fills the placeholders of its commands one after the other. What it puts in for the interpreter
and the version is looked through for the placeholders that are filled later, so that the result can
differ from one pass over the command (`Job.renders_at_once_iff`).
-/
namespace CoverageMatrix

open Text (Completes Fills chars fill fillChars replaceCharsInTurn replaceInTurn)

namespace Job

variable {c : Config} {job : Job}

/-- No value of the job lets a placeholder of another value come about that it would change. -/
def KeepsApart (job : Job) : Prop :=
  ∀ p ∈ job.placeholders, ∀ q ∈ job.placeholders, p.1 ≠ q.1 →
    Completes p.2.toList q.1.toList → q.2 = q.1

theorem proper_placeholders (job : Job) : (chars job.placeholders).Proper where
  placeholders := by
    simp only [chars, placeholders, List.map_cons, List.map_nil, List.forall_mem_cons]
    exact ⟨⟨"interpreter".toList, by decide, by decide, by decide⟩,
      ⟨"version".toList, by decide, by decide, by decide⟩,
      ⟨"job".toList, by decide, by decide, by decide⟩, nofun⟩
  distinct := by
    simp only [chars, placeholders, List.map_cons, List.map_nil]
    decide

theorem toList_renderArg (job : Job) (argument : String) :
    (job.renderArg argument).toList = replaceCharsInTurn (chars job.placeholders) argument.toList :=
  Text.toList_replaceInTurn job.placeholders argument

/-- Filled in any order, placeholders come to what they come to in one pass, if the values are kept
apart. -/
theorem KeepsApart.replaceInTurn_eq_fill (apart : job.KeepsApart) {order : List (String × String)}
    (perm : order.Perm job.placeholders) (argument : String) :
    replaceInTurn order argument = fill job.placeholders argument := by
  have permChars : (chars order).Perm (chars job.placeholders) := perm.map _
  have proper := job.proper_placeholders.of_perm permChars
  have pairwise : (chars order).Pairwise fun p q => Completes p.2 q.1 → q.2 = q.1 := by
    refine (List.pairwise_map.mp proper.distinct).imp_of_mem fun hp hq other completes => ?_
    obtain ⟨p, pMem, rfl⟩ := List.mem_map.mp hp
    obtain ⟨q, qMem, rfl⟩ := List.mem_map.mp hq
    have different : p.1 ≠ q.1 := fun same => other (congrArg String.toList same)
    exact congrArg String.toList
      (apart p (perm.mem_iff.mp pMem) q (perm.mem_iff.mp qMem) different completes)
  rw [← String.toList_inj, Text.toList_replaceInTurn, Text.toList_fill,
    Text.replaceCharsInTurn_eq_fillChars proper pairwise,
    Text.fillChars_perm job.proper_placeholders permChars]

/-- The order in which the placeholders are filled does not matter exactly if the values are kept
apart. -/
theorem keepsApart_iff_perm (job : Job) : job.KeepsApart ↔
    ∀ order : List (String × String), order.Perm job.placeholders →
      ∀ argument, replaceInTurn order argument = job.renderArg argument := by
  constructor
  · intro apart order perm argument
    have own : job.renderArg argument = replaceInTurn job.placeholders argument := rfl
    rw [own, apart.replaceInTurn_eq_fill perm, apart.replaceInTurn_eq_fill (.refl _)]
  · intro agree p hp q hq other completes
    by_contra changes
    -- the two are filled last, in either order
    have perm : (p :: q :: (job.placeholders.erase p).erase q).Perm job.placeholders := by
      have mem : q ∈ job.placeholders.erase p :=
        (List.mem_erase_of_ne fun same => other (congrArg Prod.fst same.symm)).mpr hq
      exact ((List.perm_cons_erase mem).symm.cons p).trans (List.perm_cons_erase hp).symm
    generalize (job.placeholders.erase p).erase q = rest at perm
    have proper := job.proper_placeholders.of_perm (perm.map fun p => (p.1.toList, p.2.toList))
    obtain ⟨text, turns⟩ := Text.exists_turns_ne proper completes
      fun same => changes (String.toList_inj.mp same)
    have last (order : List (String × String)) (last : order.Perm [p, q]) :
        replaceCharsInTurn (chars (rest ++ order)) text =
          (job.renderArg (String.ofList text)).toList := by
      have all : (rest ++ order).Perm job.placeholders :=
        (List.perm_append_comm.trans (last.append_right rest)).trans perm
      rw [← agree _ all, Text.toList_replaceInTurn, String.toList_ofList]
    refine turns ?_
    have either := (last [p, q] (.refl _)).trans (last [q, p] (.swap p q [])).symm
    simpa [chars] using either

theorem renderArg_eq_fill_iff (named : '-' ∈ job.id.text.toList) :
    (∀ argument, job.renderArg argument = fill job.placeholders argument) ↔
      ¬Completes job.interpreter.toList "\x7bjob\x7d".toList ∧
      ¬Completes job.version.toList "\x7bjob\x7d".toList ∧
      (Completes job.interpreter.toList "\x7bversion\x7d".toList →
        job.version = "\x7bversion\x7d") := by
  have turns : (∀ argument, job.renderArg argument = fill job.placeholders argument) ↔
      ∀ text, replaceCharsInTurn (chars job.placeholders) text =
        fillChars (chars job.placeholders) text := by
    constructor
    · intro agree text
      have argument := congrArg String.toList (agree (String.ofList text))
      rwa [toList_renderArg, Text.toList_fill, String.toList_ofList] at argument
    · intro agree argument
      rw [← String.toList_inj, toList_renderArg, Text.toList_fill, agree]
  have second : '-' ∉ "\x7bversion\x7d".toList := by decide
  have third : '-' ∉ "\x7bjob\x7d".toList := by decide
  rw [turns, ← String.toList_inj]
  exact Text.replaceCharsInTurn_eq_fillChars_iff
    (p := ("\x7binterpreter\x7d".toList, job.interpreter.toList))
    (q := ("\x7bversion\x7d".toList, job.version.toList))
    (r := ("\x7bjob\x7d".toList, job.id.text.toList))
    job.proper_placeholders second third named

/-- The placeholders of a job's commands, filled one after the other, come to what they come to in one
pass that never looks at what it has put in, for all arguments, exactly if neither the interpreter nor
the version lets the job's placeholder come about, and the interpreter lets that of the version come
about only if this takes its own place. Names without braces do so where they are part of the
placeholder's name. The order of the placeholders does not matter exactly if no value lets another
placeholder come about that would change, and then all orders come to what one pass does. -/
theorem renders_at_once_iff (c : Config) (job : Job) (own : job ∈ c.jobs) :
    ((∀ argument, job.renderArg argument = fill job.placeholders argument) ↔
      ¬Completes job.interpreter.toList "\x7bjob\x7d".toList ∧
      ¬Completes job.version.toList "\x7bjob\x7d".toList ∧
      (Completes job.interpreter.toList "\x7bversion\x7d".toList →
        job.version = "\x7bversion\x7d")) ∧
    ((∀ brace ∈ ['\x7b', '\x7d'],
        brace ∉ job.interpreter.toList ∧ brace ∉ job.version.toList) →
      ((∀ argument, job.renderArg argument = fill job.placeholders argument) ↔
        ¬job.interpreter.toList <:+: "job".toList ∧ ¬job.version.toList <:+: "job".toList ∧
        ¬job.interpreter.toList <:+: "version".toList)) ∧
    ((∀ order : List (String × String), order.Perm job.placeholders →
        ∀ argument, replaceInTurn order argument = job.renderArg argument) ↔ job.KeepsApart) ∧
    (job.KeepsApart → ∀ order : List (String × String), order.Perm job.placeholders →
      ∀ argument, replaceInTurn order argument = fill job.placeholders argument) := by
  have named : '-' ∈ job.id.text.toList := by
    rw [Config.id_text_of_mem_jobs own]
    simp
  have once := renderArg_eq_fill_iff named
  refine ⟨once, fun braceless => ?_, (keepsApart_iff_perm job).symm,
    fun apart order perm argument => apart.replaceInTurn_eq_fill perm argument⟩
  obtain ⟨⟨interpreterOpen, versionOpen⟩, interpreterClose, versionClose⟩ :
      _ ∧ _ := ⟨braceless '\x7b' (by simp), braceless '\x7d' (by simp)⟩
  have inJob {value : List Char} (hopen : '\x7b' ∉ value) (hclose : '\x7d' ∉ value) :
      Completes value "\x7bjob\x7d".toList ↔ value <:+: "job".toList :=
    Text.completes_iff_infix "job".toList (by decide) (by decide) hopen hclose
  have inVersion : Completes job.interpreter.toList "\x7bversion\x7d".toList ↔
      job.interpreter.toList <:+: "version".toList :=
    Text.completes_iff_infix "version".toList (by decide) (by decide) interpreterOpen
      interpreterClose
  have other : job.version ≠ "\x7bversion\x7d" := fun same => versionOpen (by rw [same]; decide)
  rw [once, inJob interpreterOpen interpreterClose, inJob versionOpen versionClose, inVersion]
  simp only [other, imp_false]

/-- The interpreter has the name of a placeholder. -/
def versionInterpreter : Config :=
  { matrix := { interpreter := "version" } }

/-- Nothing is wrong with the configuration, and still its interpreter, put between braces, makes way
for the version. The jobs of the default configuration have nothing to fear. -/
theorem renders_at_once_iff_braced :
    let braced := versionInterpreter.job 1 "2.7"
    let plain := ({} : Config).job 1 "2.7"
    versionInterpreter.validate = .ok () ∧ braced ∈ versionInterpreter.jobs ∧
      (¬∀ argument, braced.renderArg argument = fill braced.placeholders argument) ∧
      plain ∈ ({} : Config).jobs ∧ plain.KeepsApart ∧
      ∀ argument, plain.renderArg argument = fill plain.placeholders argument := by
  intro braced plain
  have bracedOwn : braced ∈ versionInterpreter.jobs := List.mem_singleton_self _
  have plainOwn : plain ∈ ({} : Config).jobs := List.mem_singleton_self _
  have apart : plain.KeepsApart := by
    unfold KeepsApart
    decide +kernel
  -- no value of the two jobs has a brace
  have bracedValues : ∀ brace ∈ ['\x7b', '\x7d'],
      brace ∉ "version".toList ∧ brace ∉ "2.7".toList := by
    simp only [List.forall_mem_cons]
    exact ⟨⟨by decide, by decide⟩, ⟨by decide, by decide⟩, nofun⟩
  have plainValues : ∀ brace ∈ ['\x7b', '\x7d'],
      brace ∉ "python".toList ∧ brace ∉ "2.7".toList := by
    simp only [List.forall_mem_cons]
    exact ⟨⟨by decide, by decide⟩, ⟨by decide, by decide⟩, nofun⟩
  obtain ⟨-, bracedOnce, -, -⟩ := renders_at_once_iff versionInterpreter braced bracedOwn
  obtain ⟨-, plainOnce, -, -⟩ := renders_at_once_iff {} plain plainOwn
  refine ⟨rfl, bracedOwn, fun once => ?_, plainOwn, apart, ?_⟩
  · obtain ⟨-, -, whole⟩ := (bracedOnce bracedValues).mp once
    exact whole (List.infix_refl _)
  · have within : ¬"python".toList <:+: "job".toList ∧ ¬"2.7".toList <:+: "job".toList ∧
        ¬"python".toList <:+: "version".toList := by decide
    exact (plainOnce plainValues).mpr within

end Job
end CoverageMatrix
