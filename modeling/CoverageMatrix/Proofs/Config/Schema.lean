import CoverageMatrix.Proofs.Config.Form
import CoverageMatrix.Proofs.Data.Schema

/-!
# The schema of a configuration

For every section: its fields with their kinds, what a value of it carries over from a document
(`Carries`), and that its reader reads just that. A field that the document leaves out has the
default of its section.
-/
namespace CoverageMatrix

open Data (Is Gives Itemwise)
open Decode (ReadsAs readsAs_text readsAs_path readsAs_variant readsAs_record
  lookup_named_iff)
open Fragment (ofData)

/-! ## Variables -/

namespace EnvVars

theorem get?_ofList {pairs : List (String × String)} (keys : (pairs.map (·.1)).Nodup)
    (name : String) : (ofList pairs).get? name = pairs.lookup name := by
  rw [ofList, get?_foldl_insert pairs (List.pairwise_map.1 keys), get?_empty, Option.or_none]

/-- Variables have the texts of a table under its keys. -/
def Carries (d : Data) (vars : EnvVars) : Prop :=
  ∀ name, d.entries.lookup name = (vars.get? name).map .text

theorem lookup_texts (l : List (String × String)) (name : String) :
    (l.map fun e => (e.1, Data.text e.2)).lookup name = (l.lookup name).map .text := by
  induction l with
  | nil => rfl
  | cons e l ih =>
    rw [List.map_cons, List.lookup_cons, List.lookup_cons, ih]
    cases name == e.1 <;> rfl

theorem readsAs : ReadsAs decode .environment Carries where
  conforms {d vars} _ written read := by
    cases written with
    | environment es =>
      rw [decode] at read
      cases table : Decode.tableOf Decode.text (ofData (.table es)) with
      | error e =>
        rw [table] at read
        cases read
      | ok l =>
        rw [Decode.tableOf_text_eq_ok_iff] at table
        exact table ▸ .environment l
  ok_iff {d vars} regular conforms := by
    cases conforms with
    | environment l =>
      cases regular with
      | table keys _ =>
        rw [List.map_map] at keys
        have read :
            decode (ofData (.table (l.map fun e => (e.1, .text e.2)))) = .ok (ofList l) := by
          rw [decode, Decode.tableOf_text_eq_ok_iff.2 rfl]
          rfl
        rw [read, Except.ok.injEq, Carries]
        simp only [Data.entries, lookup_texts, ← get?_ofList keys]
        constructor
        · rintro rfl name
          rfl
        · intro same
          refine ext_get? fun name => ?_
          exact Option.map_injective (fun s t eq => Data.text.inj eq) (same name)
  exists_carried {d} regular conforms := by
    cases conforms with
    | environment l =>
      cases regular with
      | table keys _ =>
        rw [List.map_map] at keys
        refine ⟨ofList l, fun name => ?_⟩
        rw [get?_ofList keys]
        exact lookup_texts l name

end EnvVars

/-! ## Parts -/

theorem Installer.readsAs : ReadsAs (Decode.variant .toml byName) (.choice ["system", "language"])
    (Is fun i => .text i.name) :=
  readsAs_variant (lookup_named_iff (by decide) fun i => by cases i <;> decide)

theorem CoverageFlags.readsAs : ReadsAs (Decode.variant .toml byName)
    (.choice ["nose", "pytest-cov"]) (Is fun f => .text f.name) :=
  readsAs_variant (lookup_named_iff (by decide) fun f => by cases f <;> decide)

namespace InstallAction

def fields : List (String × Kind) :=
  [("installer", .choice ["system", "language"]), ("package", .text), ("path", .text)]

/-- Only the installer has no default. -/
def needed : List String := ["installer"]

structure Carries (d : Data) (a : InstallAction) : Prop where
  installer : d.Has "installer" (Is fun i : Installer => .text i.name) a.installer
  package : d.Sets "package" (Gives (Is .text)) none a.package
  path : d.Sets "path" (Gives (Is Path.toData)) none a.path

theorem readsAs : ReadsAs (decode .toml) (.record fields needed) Carries := by
  have installer := Installer.readsAs
  have package := readsAs_text.optional
  have path := readsAs_path.optional
  refine readsAs_record (fun _ => rfl) (.cons (installer.meets _) (.cons (package.meets_defaulted _)
    (.cons (path.meets_defaulted _) .nil))) (by decide) ?_ ?_ ?_
  · intro es a built name need
    cases List.mem_singleton.1 need
    obtain ⟨i, read, -⟩ := bind_eq_ok_iff.1 built
    exact Decode.mem_keys_of_get read
  · rintro es regular conforms a ⟨i, n, p⟩
    simp only [bind, Except.bind, installer.get regular conforms i rfl,
      package.getD regular conforms n rfl, path.getD regular conforms p rfl]
    rfl
  · intro es regular conforms
    obtain ⟨i, hi⟩ := installer.exists_has regular conforms "installer" (.head _) rfl
    obtain ⟨n, hn⟩ := package.exists_sets regular conforms "package" none rfl
    obtain ⟨p, hp⟩ := path.exists_sets regular conforms "path" none rfl
    exact ⟨⟨i, n, p⟩, hi, hn, hp⟩

end InstallAction

namespace Config

theorem readsAs_commandOf : ReadsAs commandOf .texts (Is .texts) :=
  Decode.readsAs_listOf_text

/-! ## Sections -/

namespace Reporter

def fields : List (String × Kind) :=
  [("id", .text), ("id_env", .text), ("helper_url", .text), ("helper_file", .text),
   ("helper_path", .text), ("timeout_secs", .natural)]

structure Carries (d : Data) (c : Reporter) : Prop where
  id : d.Sets "id" (Gives (Is .text)) ({} : Reporter).id c.id
  idEnv : d.Sets "id_env" (Is .text) ({} : Reporter).idEnv c.idEnv
  helperUrl : d.Sets "helper_url" (Is .text) ({} : Reporter).helperUrl c.helperUrl
  helperFile : d.Sets "helper_file" (Gives (Is Path.toData)) ({} : Reporter).helperFile c.helperFile
  helperPath : d.Sets "helper_path" (Is Path.toData) ({} : Reporter).helperPath c.helperPath
  timeoutSecs : d.Sets "timeout_secs" (Is fun n : Nat => .int n) ({} : Reporter).timeoutSecs
    c.timeoutSecs

theorem readsAs : ReadsAs (decode .toml) (.record fields []) Carries := by
  have text := readsAs_text
  have id := readsAs_text.optional
  have file := readsAs_path.optional
  have path := readsAs_path
  have timeout := Decode.readsAs_natural "u64"
  refine readsAs_record (fun _ => rfl) (.cons (id.meets_defaulted _) (.cons (text.meets_defaulted _)
    (.cons (text.meets_defaulted _) (.cons (file.meets_defaulted _) (.cons (path.meets_defaulted _)
    (.cons (timeout.meets_defaulted _) .nil)))))) (by decide) (fun _ _ _ _ => nofun) ?_ ?_
  · rintro es regular conforms c ⟨i, v, u, f, p, s⟩
    simp only [bind, Except.bind, id.getD regular conforms i rfl, text.getD regular conforms v rfl,
      text.getD regular conforms u rfl, file.getD regular conforms f rfl,
      path.getD regular conforms p rfl, timeout.getD regular conforms s rfl]
    rfl
  · intro es regular conforms
    let absent : Reporter := {}
    obtain ⟨i, hi⟩ := id.exists_sets regular conforms "id" absent.id rfl
    obtain ⟨v, hv⟩ := text.exists_sets regular conforms "id_env" absent.idEnv rfl
    obtain ⟨u, hu⟩ := text.exists_sets regular conforms "helper_url" absent.helperUrl rfl
    obtain ⟨f, hf⟩ := file.exists_sets regular conforms "helper_file" absent.helperFile rfl
    obtain ⟨p, hp⟩ := path.exists_sets regular conforms "helper_path" absent.helperPath rfl
    obtain ⟨s, hs⟩ := timeout.exists_sets regular conforms "timeout_secs" absent.timeoutSecs rfl
    exact ⟨⟨i, v, u, f, p, s⟩, hi, hv, hu, hf, hp, hs⟩

end Reporter

namespace Matrix

def fields : List (String × Kind) :=
  [("interpreter", .text), ("versions", .texts), ("parallelism", .natural)]

structure Carries (d : Data) (c : Matrix) : Prop where
  interpreter : d.Sets "interpreter" (Is .text) ({} : Matrix).interpreter c.interpreter
  versions : d.Sets "versions" (Is .texts) ({} : Matrix).versions c.versions
  parallelism : d.Sets "parallelism" (Is fun n : Nat => .int n) ({} : Matrix).parallelism
    c.parallelism

theorem readsAs : ReadsAs (decode .toml) (.record fields []) Carries := by
  have text := readsAs_text
  have texts := Decode.readsAs_listOf_text
  have number := Decode.readsAs_natural "usize"
  refine readsAs_record (fun _ => rfl) (.cons (text.meets_defaulted _)
    (.cons (texts.meets_defaulted _) (.cons (number.meets_defaulted _) .nil))) (by decide)
    (fun _ _ _ _ => nofun) ?_ ?_
  · rintro es regular conforms c ⟨i, v, p⟩
    simp only [bind, Except.bind, text.getD regular conforms i rfl,
      texts.getD regular conforms v rfl, number.getD regular conforms p rfl]
    rfl
  · intro es regular conforms
    let absent : Matrix := {}
    obtain ⟨i, hi⟩ := text.exists_sets regular conforms "interpreter" absent.interpreter rfl
    obtain ⟨v, hv⟩ := texts.exists_sets regular conforms "versions" absent.versions rfl
    obtain ⟨p, hp⟩ := number.exists_sets regular conforms "parallelism" absent.parallelism rfl
    exact ⟨⟨i, v, p⟩, hi, hv, hp⟩

end Matrix

namespace SystemInstaller

def fields : List (String × Kind) :=
  [("command", .texts), ("refresh", .texts)]

structure Carries (d : Data) (c : SystemInstaller) : Prop where
  command : d.Sets "command" (Is .texts) ({} : SystemInstaller).command c.command
  refresh : d.Sets "refresh" (Is .texts) ({} : SystemInstaller).refresh c.refresh

theorem readsAs : ReadsAs (decode .toml) (.record fields []) Carries := by
  have command := readsAs_commandOf
  refine readsAs_record (fun _ => rfl) (.cons (command.meets_defaulted _)
    (.cons (command.meets_defaulted _) .nil)) (by decide) (fun _ _ _ _ => nofun) ?_ ?_
  · rintro es regular conforms c ⟨i, r⟩
    simp only [bind, Except.bind, command.getD regular conforms i rfl,
      command.getD regular conforms r rfl]
    rfl
  · intro es regular conforms
    let absent : SystemInstaller := {}
    obtain ⟨i, hi⟩ := command.exists_sets regular conforms "command" absent.command rfl
    obtain ⟨r, hr⟩ := command.exists_sets regular conforms "refresh" absent.refresh rfl
    exact ⟨⟨i, r⟩, hi, hr⟩

end SystemInstaller

namespace LanguageInstaller

def fields : List (String × Kind) :=
  [("command", .texts)]

structure Carries (d : Data) (c : LanguageInstaller) : Prop where
  command : d.Sets "command" (Is .texts) ({} : LanguageInstaller).command c.command

theorem readsAs : ReadsAs (decode .toml) (.record fields []) Carries := by
  have command := readsAs_commandOf
  refine readsAs_record (fun _ => rfl) (.cons (command.meets_defaulted _) .nil) (by decide)
    (fun _ _ _ _ => nofun) ?_ ?_
  · rintro es regular conforms c ⟨i⟩
    simp only [bind, Except.bind, command.getD regular conforms i rfl]
    rfl
  · intro es regular conforms
    let absent : LanguageInstaller := {}
    obtain ⟨i, hi⟩ := command.exists_sets regular conforms "command" absent.command rfl
    exact ⟨⟨i⟩, ⟨hi⟩⟩

end LanguageInstaller

namespace Installers

def fields : List (String × Kind) :=
  [("system", .record SystemInstaller.fields []), ("language", .record LanguageInstaller.fields [])]

structure Carries (d : Data) (c : Installers) : Prop where
  system : d.Sets "system" SystemInstaller.Carries {} c.system
  language : d.Sets "language" LanguageInstaller.Carries {} c.language

theorem readsAs : ReadsAs (decode .toml) (.record fields []) Carries := by
  have system := SystemInstaller.readsAs
  have language := LanguageInstaller.readsAs
  refine readsAs_record (fun _ => rfl) (.cons (system.meets_defaulted _)
    (.cons (language.meets_defaulted _) .nil)) (by decide) (fun _ _ _ _ => nofun) ?_ ?_
  · rintro es regular conforms c ⟨s, l⟩
    simp only [bind, Except.bind, system.getD regular conforms s rfl,
      language.getD regular conforms l rfl]
    rfl
  · intro es regular conforms
    obtain ⟨s, hs⟩ := system.exists_sets regular conforms "system" {} rfl
    obtain ⟨l, hl⟩ := language.exists_sets regular conforms "language" {} rfl
    exact ⟨⟨s, l⟩, hs, hl⟩

end Installers

namespace Tests

def fields : List (String × Kind) :=
  [("command", .texts), ("package", .text), ("include_tests", .truth),
   ("flags", .choice ["nose", "pytest-cov"]), ("coverage_file", .text), ("coverage_env", .text),
   ("timeout_secs", .natural)]

structure Carries (d : Data) (c : Tests) : Prop where
  command : d.Sets "command" (Is .texts) ({} : Tests).command c.command
  package : d.Sets "package" (Gives (Is .text)) ({} : Tests).package c.package
  includeTests : d.Sets "include_tests" (Is .bool) ({} : Tests).includeTests c.includeTests
  flags : d.Sets "flags" (Is fun f : CoverageFlags => .text f.name) ({} : Tests).flags c.flags
  coverageFile : d.Sets "coverage_file" (Is Path.toData) ({} : Tests).coverageFile c.coverageFile
  coverageEnv : d.Sets "coverage_env" (Is .text) ({} : Tests).coverageEnv c.coverageEnv
  timeoutSecs : d.Sets "timeout_secs" (Is fun n : Nat => .int n) ({} : Tests).timeoutSecs
    c.timeoutSecs

theorem readsAs : ReadsAs (decode .toml) (.record fields []) Carries := by
  have command := readsAs_commandOf
  have package := readsAs_text.optional
  have truth := Decode.readsAs_bool
  have flags := CoverageFlags.readsAs
  have path := readsAs_path
  have text := readsAs_text
  have timeout := Decode.readsAs_natural "u64"
  refine readsAs_record (fun _ => rfl) (.cons (command.meets_defaulted _)
    (.cons (package.meets_defaulted _) (.cons (truth.meets_defaulted _)
    (.cons (flags.meets_defaulted _) (.cons (path.meets_defaulted _) (.cons (text.meets_defaulted _)
    (.cons (timeout.meets_defaulted _) .nil))))))) (by decide) (fun _ _ _ _ => nofun) ?_ ?_
  · rintro es regular conforms c ⟨m, n, t, f, p, v, s⟩
    simp only [bind, Except.bind, command.getD regular conforms m rfl,
      package.getD regular conforms n rfl, truth.getD regular conforms t rfl,
      flags.getD regular conforms f rfl, path.getD regular conforms p rfl,
      text.getD regular conforms v rfl, timeout.getD regular conforms s rfl]
    rfl
  · intro es regular conforms
    let absent : Tests := {}
    obtain ⟨m, hm⟩ := command.exists_sets regular conforms "command" absent.command rfl
    obtain ⟨n, hn⟩ := package.exists_sets regular conforms "package" absent.package rfl
    obtain ⟨t, ht⟩ := truth.exists_sets regular conforms "include_tests" absent.includeTests rfl
    obtain ⟨f, hf⟩ := flags.exists_sets regular conforms "flags" absent.flags rfl
    obtain ⟨p, hp⟩ := path.exists_sets regular conforms "coverage_file" absent.coverageFile rfl
    obtain ⟨v, hv⟩ := text.exists_sets regular conforms "coverage_env" absent.coverageEnv rfl
    obtain ⟨s, hs⟩ := timeout.exists_sets regular conforms "timeout_secs" absent.timeoutSecs rfl
    exact ⟨⟨m, n, t, f, p, v, s⟩, hm, hn, ht, hf, hp, hv, hs⟩

end Tests

namespace Export

def fields : List (String × Kind) :=
  [("command", .texts), ("output", .text)]

structure Carries (d : Data) (c : Export) : Prop where
  command : d.Sets "command" (Is .texts) ({} : Export).command c.command
  output : d.Sets "output" (Is .text) ({} : Export).output c.output

theorem readsAs : ReadsAs (decode .toml) (.record fields []) Carries := by
  have command := readsAs_commandOf
  have text := readsAs_text
  refine readsAs_record (fun _ => rfl) (.cons (command.meets_defaulted _)
    (.cons (text.meets_defaulted _) .nil)) (by decide) (fun _ _ _ _ => nofun) ?_ ?_
  · rintro es regular conforms c ⟨m, o⟩
    simp only [bind, Except.bind, command.getD regular conforms m rfl,
      text.getD regular conforms o rfl]
    rfl
  · intro es regular conforms
    let absent : Export := {}
    obtain ⟨m, hm⟩ := command.exists_sets regular conforms "command" absent.command rfl
    obtain ⟨o, ho⟩ := text.exists_sets regular conforms "output" absent.output rfl
    exact ⟨⟨m, o⟩, hm, ho⟩

end Export

/-! ## The whole -/

def fields : List (String × Kind) :=
  [("workdir", .text), ("env", .environment), ("reporter", .record Reporter.fields []),
   ("matrix", .record Matrix.fields []),
   ("dependencies", .records InstallAction.fields InstallAction.needed),
   ("installers", .record Installers.fields []), ("tests", .record Tests.fields []),
   ("export", .record Export.fields [])]

def kind : Kind := .record fields []

structure Carries (d : Data) (c : Config) : Prop where
  workdir : d.Sets "workdir" (Is Path.toData) ({} : Config).workdir c.workdir
  env : d.Sets "env" EnvVars.Carries .empty c.env
  reporter : d.Sets "reporter" Reporter.Carries {} c.reporter
  matrix : d.Sets "matrix" Matrix.Carries {} c.matrix
  dependencies : d.Sets "dependencies" (Itemwise InstallAction.Carries) [] c.dependencies
  installers : d.Sets "installers" Installers.Carries {} c.installers
  tests : d.Sets "tests" Tests.Carries {} c.tests
  exports : d.Sets "export" Export.Carries {} c.exports

theorem readsAs : ReadsAs (decode .toml) kind Carries := by
  have path := readsAs_path
  have env := EnvVars.readsAs
  have reporter := Reporter.readsAs
  have matrix := Matrix.readsAs
  have dependencies := InstallAction.readsAs.listOf
  have installers := Installers.readsAs
  have tests := Tests.readsAs
  have exports := Export.readsAs
  refine readsAs_record (fun _ => rfl) (.cons (path.meets_defaulted _) (.cons (env.meets_defaulted _)
    (.cons (reporter.meets_defaulted _) (.cons (matrix.meets_defaulted _)
    (.cons (dependencies.meets_defaulted _) (.cons (installers.meets_defaulted _)
    (.cons (tests.meets_defaulted _) (.cons (exports.meets_defaulted _) .nil)))))))) (by decide)
    (fun _ _ _ _ => nofun) ?_ ?_
  · rintro es regular conforms c ⟨w, v, r, m, d, i, t, x⟩
    simp only [bind, Except.bind, path.getD regular conforms w rfl, env.getD regular conforms v rfl,
      reporter.getD regular conforms r rfl, matrix.getD regular conforms m rfl,
      dependencies.getD regular conforms d rfl, installers.getD regular conforms i rfl,
      tests.getD regular conforms t rfl, exports.getD regular conforms x rfl]
    rfl
  · intro es regular conforms
    obtain ⟨w, hw⟩ := path.exists_sets regular conforms "workdir" ({} : Config).workdir rfl
    obtain ⟨v, hv⟩ := env.exists_sets regular conforms "env" .empty rfl
    obtain ⟨r, hr⟩ := reporter.exists_sets regular conforms "reporter" {} rfl
    obtain ⟨m, hm⟩ := matrix.exists_sets regular conforms "matrix" {} rfl
    obtain ⟨d, hd⟩ := dependencies.exists_sets regular conforms "dependencies" [] rfl
    obtain ⟨i, hi⟩ := installers.exists_sets regular conforms "installers" {} rfl
    obtain ⟨t, ht⟩ := tests.exists_sets regular conforms "tests" {} rfl
    obtain ⟨x, hx⟩ := exports.exists_sets regular conforms "export" {} rfl
    exact ⟨⟨w, v, r, m, d, i, t, x⟩, hw, hv, hr, hm, hd, hi, ht, hx⟩

end Config
end CoverageMatrix
