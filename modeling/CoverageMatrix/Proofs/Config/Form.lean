import CoverageMatrix.Proofs.Data.Decode

/-! The document form of a configuration is read as that configuration. -/
namespace CoverageMatrix

open Decode (Dialect Field Fits Reads record_ofData shown)
open Fragment (ofData)

/-! ## Parts -/

theorem Path.decode_toData (p : Path) : Path.decode (ofData p.toData) = .ok p := rfl

@[simp] theorem Data.lookup_entryIf {α : Type} (name : String) (form : α → Data) (o : Option α)
    (key : String) :
    (Data.entryIf name form o).lookup key = if key = name then o.map form else none := by
  cases o with
  | none => simp [Data.entryIf]
  | some a =>
    by_cases same : key = name <;> simp [Data.entryIf, List.lookup_cons, same, beq_false_of_ne]

theorem Data.keys_entryIf {α : Type} (name : String) (form : α → Data) (o : Option α) :
    ((Data.entryIf name form o).map (·.1)).Sublist [name] := by
  cases o with
  | none => exact List.nil_sublist _
  | some a => exact List.Sublist.refl _

namespace InstallAction

variable (dialect : Dialect) (a : InstallAction)

theorem keys_entries :
    (a.toData.entries.map (·.1)).Sublist ["installer", "package", "path"] := by
  rw [toData, Data.entries, List.map_append, List.map_append]
  exact ((List.Sublist.refl _).append (Data.keys_entryIf ..)).append (Data.keys_entryIf ..)

theorem decode_toData : decode dialect (ofData a.toData) = .ok a := by
  have there : a.toData.entries.lookup "installer" = some (.text a.installer.name) := rfl
  have named : Decode.variant dialect Installer.byName (ofData (.text a.installer.name)) =
      .ok a.installer := by
    cases a.installer <;> exact Decode.variant_ofData dialect rfl
  have installer : Reads a.toData.entries "installer" (Decode.variant dialect Installer.byName)
      a.installer a.installer := .of_lookup there named
  have package : Reads a.toData.entries "package" (Decode.optional Decode.text) none a.package :=
    .of_option (by simp [toData, Data.entries, List.lookup_append, List.lookup_cons]) (by simp)
      Decode.text_ofData
  have path : Reads a.toData.entries "path" (Decode.optional Path.decode) none a.path :=
    .of_option (by simp [toData, Data.entries, List.lookup_append, List.lookup_cons])
      (by simp [Path.toData]) Path.decode_toData
  rw [decode, show a.toData = .table a.toData.entries from rfl]
  rw [record_ofData]
  · simp only [bind, Except.bind, Decode.get_of_lookup there named, package.getD, path.getD]
    rfl
  · refine .of_sublist a.keys_entries rfl (by decide) ?_
    simp only [List.forall_mem_cons]
    exact ⟨fun _ => installer.check, fun _ => package.check, fun _ => path.check, by simp⟩

end InstallAction

theorem EnvVars.ofList_entries (vars : EnvVars) : EnvVars.ofList vars.entries = vars := by
  refine EnvVars.ext_get? fun name => ?_
  rw [EnvVars.ofList, EnvVars.get?_foldl_insert vars.entries vars.distinct, EnvVars.get?_empty,
    Option.or_none]
  rfl

theorem EnvVars.decode_toData (vars : EnvVars) :
    EnvVars.decode (ofData vars.toData) = .ok vars := by
  rw [decode, toData, Decode.tableOf_text_texts]
  exact congrArg _ vars.ofList_entries

namespace Config

section
variable (dialect : Dialect)

theorem commandOf_texts (command : CommandTemplate) :
    commandOf (ofData (.texts command)) = .ok command :=
  Decode.listOf_text_texts command

/-! ## Sections -/

namespace Reporter

variable (c : Reporter)

theorem keys_entries : (c.toData.entries.map (·.1)).Sublist
    ["id", "id_env", "helper_url", "helper_file", "helper_path", "timeout_secs"] := by
  simp only [toData, Data.entries, List.map_append]
  exact (((Data.keys_entryIf ..).append (.refl _)).append (Data.keys_entryIf ..)).append (.refl _)

theorem decode_toData (small : (c.timeoutSecs : Int) ≤ Data.maxUInt64) :
    decode dialect (ofData c.toData) = .ok c := by
  have id : Reads c.toData.entries "id" (Decode.optional Decode.text) none c.id :=
    .of_option (by simp [toData, Data.entries, List.lookup_append, List.lookup_cons]) (by simp)
      Decode.text_ofData
  have idEnv : Reads c.toData.entries "id_env" Decode.text ({} : Reporter).idEnv c.idEnv :=
    .of_lookup (d := .text c.idEnv) (by simp [toData, Data.entries, List.lookup_append]) rfl
  have helperUrl : Reads c.toData.entries "helper_url" Decode.text ({} : Reporter).helperUrl
      c.helperUrl :=
    .of_lookup (d := .text c.helperUrl)
      (by simp [toData, Data.entries, List.lookup_append, List.lookup_cons]) rfl
  have helperFile : Reads c.toData.entries "helper_file" (Decode.optional Path.decode) none
      c.helperFile :=
    .of_option (by simp [toData, Data.entries, List.lookup_append, List.lookup_cons])
      (by simp [Path.toData]) Path.decode_toData
  have helperPath : Reads c.toData.entries "helper_path" Path.decode ({} : Reporter).helperPath
      c.helperPath :=
    .of_lookup (by simp [toData, Data.entries, List.lookup_append, List.lookup_cons])
      (Path.decode_toData c.helperPath)
  have timeoutSecs : Reads c.toData.entries "timeout_secs" (Decode.natural "u64")
      ({} : Reporter).timeoutSecs c.timeoutSecs :=
    .of_lookup (by simp [toData, Data.entries, List.lookup_append, List.lookup_cons])
      (Decode.natural_ofData small "u64")
  rw [decode, show c.toData = .table c.toData.entries from rfl, record_ofData]
  · simp only [bind, Except.bind, id.getD, idEnv.getD, helperUrl.getD, helperFile.getD,
      helperPath.getD, timeoutSecs.getD]
    rfl
  · refine .of_sublist c.keys_entries rfl (by decide) ?_
    simp only [List.forall_mem_cons]
    exact ⟨fun _ => id.check, fun _ => idEnv.check, fun _ => helperUrl.check,
      fun _ => helperFile.check, fun _ => helperPath.check, fun _ => timeoutSecs.check, by simp⟩

end Reporter

theorem Matrix.decode_toData (c : Matrix) (small : (c.parallelism : Int) ≤ Data.maxUInt64) :
    Matrix.decode dialect (ofData c.toData) = .ok c := by
  have interpreter : Reads c.toData.entries "interpreter" Decode.text ({} : Matrix).interpreter
      c.interpreter := .of_lookup (d := .text c.interpreter) rfl rfl
  have versions : Reads c.toData.entries "versions" (Decode.listOf Decode.text)
      ({} : Matrix).versions c.versions :=
    .of_lookup (d := .texts c.versions) rfl (Decode.listOf_text_texts c.versions)
  have parallelism : Reads c.toData.entries "parallelism" (Decode.natural "usize")
      ({} : Matrix).parallelism c.parallelism :=
    .of_lookup (d := .int c.parallelism) rfl (Decode.natural_ofData small "usize")
  rw [decode, show c.toData = .table c.toData.entries from rfl, record_ofData]
  · simp only [bind, Except.bind, interpreter.getD, versions.getD, parallelism.getD]
    rfl
  · refine .of_sublist (.refl ["interpreter", "versions", "parallelism"]) rfl (by decide) ?_
    simp only [List.forall_mem_cons]
    exact ⟨fun _ => interpreter.check, fun _ => versions.check, fun _ => parallelism.check,
      by simp⟩

theorem SystemInstaller.decode_toData (c : SystemInstaller) :
    SystemInstaller.decode dialect (ofData c.toData) = .ok c := by
  have command : Reads c.toData.entries "command" commandOf ({} : SystemInstaller).command
      c.command := .of_lookup (d := .texts c.command) rfl (commandOf_texts c.command)
  have refresh : Reads c.toData.entries "refresh" commandOf ({} : SystemInstaller).refresh
      c.refresh := .of_lookup (d := .texts c.refresh) rfl (commandOf_texts c.refresh)
  rw [decode, show c.toData = .table c.toData.entries from rfl, record_ofData]
  · simp only [bind, Except.bind, command.getD, refresh.getD]
    rfl
  · refine .of_sublist (.refl ["command", "refresh"]) rfl (by decide) ?_
    simp only [List.forall_mem_cons]
    exact ⟨fun _ => command.check, fun _ => refresh.check, by simp⟩

theorem LanguageInstaller.decode_toData (c : LanguageInstaller) :
    LanguageInstaller.decode dialect (ofData c.toData) = .ok c := by
  have command : Reads c.toData.entries "command" commandOf ({} : LanguageInstaller).command
      c.command := .of_lookup (d := .texts c.command) rfl (commandOf_texts c.command)
  rw [decode, show c.toData = .table c.toData.entries from rfl, record_ofData]
  · simp only [bind, Except.bind, command.getD]
    rfl
  · refine .of_sublist (.refl ["command"]) rfl (by decide) ?_
    simp only [List.forall_mem_cons]
    exact ⟨fun _ => command.check, by simp⟩

theorem Installers.decode_toData (c : Installers) :
    Installers.decode dialect (ofData c.toData) = .ok c := by
  have system : Reads c.toData.entries "system" (SystemInstaller.decode dialect) {} c.system :=
    .of_lookup (d := c.system.toData) rfl (c.system.decode_toData dialect)
  have language : Reads c.toData.entries "language" (LanguageInstaller.decode dialect) {}
      c.language := .of_lookup (d := c.language.toData) rfl (c.language.decode_toData dialect)
  rw [decode, show c.toData = .table c.toData.entries from rfl, record_ofData]
  · simp only [bind, Except.bind, system.getD, language.getD]
    rfl
  · refine .of_sublist (.refl ["system", "language"]) rfl (by decide) ?_
    simp only [List.forall_mem_cons]
    exact ⟨fun _ => system.check, fun _ => language.check, by simp⟩

namespace Tests

variable (c : Tests)

theorem keys_entries : (c.toData.entries.map (·.1)).Sublist
    ["command", "package", "include_tests", "flags", "coverage_file", "coverage_env",
     "timeout_secs"] := by
  simp only [toData, Data.entries, List.map_append]
  exact ((List.Sublist.refl _).append (Data.keys_entryIf ..)).append (.refl _)

theorem decode_toData (small : (c.timeoutSecs : Int) ≤ Data.maxUInt64) :
    decode dialect (ofData c.toData) = .ok c := by
  have command : Reads c.toData.entries "command" commandOf ({} : Tests).command c.command :=
    .of_lookup (d := .texts c.command) rfl (commandOf_texts c.command)
  have package : Reads c.toData.entries "package" (Decode.optional Decode.text) none c.package :=
    .of_option (by simp [toData, Data.entries, List.lookup_append, List.lookup_cons]) (by simp)
      Decode.text_ofData
  have includeTests : Reads c.toData.entries "include_tests" Decode.bool ({} : Tests).includeTests
      c.includeTests :=
    .of_lookup (d := .bool c.includeTests)
      (by simp [toData, Data.entries, List.lookup_append, List.lookup_cons]) rfl
  have named : Decode.variant dialect CoverageFlags.byName (ofData (.text c.flags.name)) =
      .ok c.flags := by
    cases c.flags <;> exact Decode.variant_ofData dialect rfl
  have flags : Reads c.toData.entries "flags" (Decode.variant dialect CoverageFlags.byName)
      ({} : Tests).flags c.flags :=
    .of_lookup (by simp [toData, Data.entries, List.lookup_append, List.lookup_cons]) named
  have coverageFile : Reads c.toData.entries "coverage_file" Path.decode ({} : Tests).coverageFile
      c.coverageFile :=
    .of_lookup (by simp [toData, Data.entries, List.lookup_append, List.lookup_cons])
      (Path.decode_toData c.coverageFile)
  have coverageEnv : Reads c.toData.entries "coverage_env" Decode.text ({} : Tests).coverageEnv
      c.coverageEnv :=
    .of_lookup (d := .text c.coverageEnv)
      (by simp [toData, Data.entries, List.lookup_append, List.lookup_cons]) rfl
  have timeoutSecs : Reads c.toData.entries "timeout_secs" (Decode.natural "u64")
      ({} : Tests).timeoutSecs c.timeoutSecs :=
    .of_lookup (by simp [toData, Data.entries, List.lookup_append, List.lookup_cons])
      (Decode.natural_ofData small "u64")
  rw [decode, show c.toData = .table c.toData.entries from rfl, record_ofData]
  · simp only [bind, Except.bind, command.getD, package.getD, includeTests.getD, flags.getD,
      coverageFile.getD, coverageEnv.getD, timeoutSecs.getD]
    rfl
  · refine .of_sublist c.keys_entries rfl (by decide) ?_
    simp only [List.forall_mem_cons]
    exact ⟨fun _ => command.check, fun _ => package.check, fun _ => includeTests.check,
      fun _ => flags.check, fun _ => coverageFile.check, fun _ => coverageEnv.check,
      fun _ => timeoutSecs.check, by simp⟩

end Tests

theorem Export.decode_toData (c : Export) : Export.decode dialect (ofData c.toData) = .ok c := by
  have command : Reads c.toData.entries "command" commandOf ({} : Export).command c.command :=
    .of_lookup (d := .texts c.command) rfl (commandOf_texts c.command)
  have output : Reads c.toData.entries "output" Decode.text ({} : Export).output c.output :=
    .of_lookup (d := .text c.output) rfl rfl
  rw [decode, show c.toData = .table c.toData.entries from rfl, record_ofData]
  · simp only [bind, Except.bind, command.getD, output.getD]
    rfl
  · refine .of_sublist (.refl ["command", "output"]) rfl (by decide) ?_
    simp only [List.forall_mem_cons]
    exact ⟨fun _ => command.check, fun _ => output.check, by simp⟩

end

/-! ## The whole -/

/-- The numbers of a configuration that are not larger than those of the format. -/
structure NumbersFit (c : Config) : Prop where
  parallelism : (c.matrix.parallelism : Int) ≤ Data.maxInt64
  helperTimeout : (c.reporter.timeoutSecs : Int) ≤ Data.maxInt64
  testTimeout : (c.tests.timeoutSecs : Int) ≤ Data.maxInt64

/-- The numbers of a configuration are numbers of 64 bits. -/
structure InRange (c : Config) : Prop where
  parallelism : (c.matrix.parallelism : Int) ≤ Data.maxUInt64
  helperTimeout : (c.reporter.timeoutSecs : Int) ≤ Data.maxUInt64
  testTimeout : (c.tests.timeoutSecs : Int) ≤ Data.maxUInt64

theorem NumbersFit.inRange {c : Config} (small : c.NumbersFit) : c.InRange where
  parallelism := Int.le_trans small.parallelism (by decide)
  helperTimeout := Int.le_trans small.helperTimeout (by decide)
  testTimeout := Int.le_trans small.testTimeout (by decide)

theorem lookup_of_perm {es es' : List (String × Data)} (perm : es.Perm es')
    (keys : (es.map (·.1)).Nodup) (k : String) : es.lookup k = es'.lookup k := by
  induction perm with
  | nil => rfl
  | cons e _ ih => rw [List.lookup_cons, List.lookup_cons, ih (List.nodup_cons.1 keys).2]
  | swap a b l =>
    have apart : b.1 ≠ a.1 := fun same =>
      (List.nodup_cons.1 keys).1 (List.mem_map.2 ⟨a, List.mem_cons_self, same.symm⟩)
    rw [List.lookup_cons, List.lookup_cons, List.lookup_cons, List.lookup_cons]
    cases first : k == b.1 with
    | false => rfl
    | true =>
      rw [beq_iff_eq.1 first, beq_false_of_ne apart]
  | trans first _ ih ih' => exact (ih keys).trans (ih' ((first.map _).nodup_iff.1 keys))

/-- The order of the entries does not count. -/
theorem decode_of_perm (dialect : Dialect) {c : Config} (small : c.InRange)
    {es : List (String × Data)} (perm : es.Perm c.toData.entries) :
    decode dialect (ofData (.table es)) = .ok c := by
  have names : (es.map (·.1)).Perm ["workdir", "env", "reporter", "matrix", "dependencies",
      "installers", "tests", "export"] := perm.map _
  have keys : (es.map (·.1)).Nodup := names.nodup_iff.2 (by decide)
  have lookup := lookup_of_perm perm keys
  have workdir : Reads es "workdir" Path.decode ({} : Config).workdir c.workdir :=
    .of_lookup (lookup _) (Path.decode_toData c.workdir)
  have env : Reads es "env" EnvVars.decode ({} : Config).env c.env :=
    .of_lookup (lookup _) c.env.decode_toData
  have reporter : Reads es "reporter" (Reporter.decode dialect) {} c.reporter :=
    .of_lookup (lookup _) (c.reporter.decode_toData dialect small.helperTimeout)
  have matrix : Reads es "matrix" (Matrix.decode dialect) {} c.matrix :=
    .of_lookup (lookup _) (c.matrix.decode_toData dialect small.parallelism)
  have dependencies : Reads es "dependencies" (Decode.listOf (InstallAction.decode dialect)) []
      c.dependencies :=
    .of_lookup (lookup _) (Decode.listOf_ofData fun a _ => a.decode_toData dialect)
  have installers : Reads es "installers" (Installers.decode dialect) {} c.installers :=
    .of_lookup (lookup _) (c.installers.decode_toData dialect)
  have tests : Reads es "tests" (Tests.decode dialect) {} c.tests :=
    .of_lookup (lookup _) (c.tests.decode_toData dialect small.testTimeout)
  have exports : Reads es "export" (Export.decode dialect) {} c.exports :=
    .of_lookup (lookup _) (c.exports.decode_toData dialect)
  rw [decode, record_ofData]
  · simp only [bind, Except.bind, workdir.getD, env.getD, reporter.getD, matrix.getD,
      dependencies.getD, installers.getD, tests.getD, exports.getD]
    rfl
  · refine ⟨keys, fun e mem => names.subset (List.mem_map_of_mem mem), ?_⟩
    simp only [List.forall_mem_cons]
    exact ⟨fun _ => workdir.check, fun _ => env.check, fun _ => reporter.check,
      fun _ => matrix.check, fun _ => dependencies.check, fun _ => installers.check,
      fun _ => tests.check, fun _ => exports.check, by simp⟩

theorem decode_toData (dialect : Dialect) {c : Config} (small : c.InRange) :
    decode dialect (ofData c.toData) = .ok c :=
  decode_of_perm dialect small (.refl c.toData.entries)

end Config
end CoverageMatrix
