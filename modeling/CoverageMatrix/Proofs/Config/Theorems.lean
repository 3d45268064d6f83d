import CoverageMatrix.Proofs.Config.Bounds
import CoverageMatrix.Proofs.Config.Document
import CoverageMatrix.Proofs.Config.Schema
import Mathlib

/-! Main results on pipeline files. -/
namespace CoverageMatrix.Config

open Data (forall_entries_cons)

theorem ofToml_of_decode {text : String} {d : Data} {c : Config}
    (parsed : Toml.parse? text = some d) (decoded : decode .toml (.ofData d) = .ok c) :
    ofToml text = c.validate.map fun _ => c := by
  rw [ofToml, ofFileText, parsed]
  dsimp only
  rw [decoded]
  dsimp only
  cases c.validate <;> rfl

/-- A configuration can be written as long as its numbers fit into the format. Its file reads back
as the same configuration, which then only has to be valid. All that is ever read can be written. -/
theorem toToml_reads_back (c : Config) :
    ((∃ text, c.toToml = .ok text) ↔ c.NumbersFit) ∧
    (∀ text, c.toToml = .ok text →
      (∃ d, Toml.parse? text = some d ∧ decode .toml (.ofData d) = .ok c) ∧
      ofToml text = c.validate.map fun _ => c) ∧
    (∀ text, ofToml text = .ok c →
      ∃ written, c.toToml = .ok written ∧ ofToml written = .ok c) := by
  have reads (text : String) (h : c.toToml = .ok text) :
      ∃ d, Toml.parse? text = some d ∧ decode .toml (.ofData d) = .ok c := by
    obtain ⟨text', d, written, parsed, decoded⟩ := exists_file (numbersFit_of_toToml h)
    cases h.symm.trans written
    exact ⟨d, parsed, decoded⟩
  refine ⟨⟨fun ⟨_, h⟩ => numbersFit_of_toToml h, fun small => ?_⟩, fun text h => ?_,
    fun text h => ?_⟩
  · obtain ⟨text, _, written, -⟩ := exists_file small
    exact ⟨text, written⟩
  · obtain ⟨d, parsed, decoded⟩ := reads text h
    exact ⟨⟨d, parsed, decoded⟩, ofToml_of_decode parsed decoded⟩
  · obtain ⟨written, d, made, parsed, decoded⟩ := exists_file (numbersFit_of_ofToml h)
    refine ⟨written, made, ?_⟩
    obtain ⟨_, -, -, valid⟩ := ofToml_eq_ok h
    rw [ofToml_of_decode parsed decoded, valid]
    rfl

/-- A configuration whose texts need quotes, escapes and several lines. -/
def patchwork : Config where
  env := .ofList [("it's \"quoted\"", "a\n'''\"\"\"\n"), ("", "\x00\\"), ("plain", "")]
  reporter := { id := some "\"'\r\n'\"" }
  matrix := { versions := ["2.7", "3.11\""], parallelism := 3 }
  dependencies := [{ installer := .system, path := some ⟨"C:\\dir"⟩ }]

theorem toToml_reads_back_patchwork :
    patchwork.NumbersFit ∧
      ∃ text, patchwork.toToml = .ok text ∧ ofToml text = .ok patchwork := by
  have small : patchwork.NumbersFit := ⟨by decide, by decide, by decide⟩
  have valid : patchwork.validate = .ok () := rfl
  obtain ⟨writable, reads, again⟩ := toToml_reads_back patchwork
  obtain ⟨text, written⟩ := writable.2 small
  have read := (reads text written).2
  rw [valid] at read
  exact ⟨small, again text read⟩

/-! ## Strictness -/

/-- A document whose sections are tables is read if it conforms to the schema, and then as the one
configuration that carries what it says, if that one is valid. Any other such document is refused
for an entry in it, whatever the rest of it says. -/
theorem ofToml_strict {text : String} {d : Data} (parsed : Toml.parse? text = some d)
    (written : d.Written kind) :
    (∀ c, ofToml text = .ok c ↔ d.Conforms kind ∧ Carries d c ∧ c.validate = .ok ()) ∧
    (d.Conforms kind → ∃! c, Carries d c) ∧
    (∀ c, d.Conforms kind → Carries d c → ofToml text = c.validate.map fun _ => c) ∧
    (¬ d.Conforms kind → ∃ e, ofToml text = .error (.configParse ⟨"<inline>"⟩ (.illTyped e))) := by
  have regular := Toml.parse?_regular parsed
  have carried (c : Config) (conforms : d.Conforms kind) (carries : Carries d c) :
      ofToml text = c.validate.map fun _ => c :=
    ofToml_of_decode parsed ((readsAs.ok_iff regular conforms).2 carries)
  refine ⟨fun c => ⟨fun read => ?_, fun ⟨conforms, carries, valid⟩ => ?_⟩, fun conforms => ?_,
    carried, fun strange => ?_⟩
  · obtain ⟨d', parsed', decoded, valid⟩ := ofToml_eq_ok read
    cases parsed.symm.trans parsed'
    have conforms := readsAs.conforms regular written decoded
    exact ⟨conforms, (readsAs.ok_iff regular conforms).1 decoded, valid⟩
  · rw [carried c conforms carries, valid]
    rfl
  · obtain ⟨c, carries⟩ := readsAs.exists_carried regular conforms
    refine ⟨c, carries, fun c' carries' => ?_⟩
    have decoded := (readsAs.ok_iff regular conforms).2 carries
    have decoded' := (readsAs.ok_iff regular conforms).2 carries'
    exact Except.ok.inj (decoded'.symm.trans decoded)
  · cases decoded : decode .toml (.ofData d) with
    | ok c => exact absurd (readsAs.conforms regular written decoded) strange
    | error e =>
      refine ⟨e, ?_⟩
      rw [ofToml, ofFileText, parsed]
      dsimp only
      rw [decoded]
      rfl

/-- A document in which some fields are left out. -/
def sparse : Data :=
  .table [("workdir", .text "src"), ("env", .table [("HOME", .text "")]),
    ("matrix", .table [("versions", .texts ["3.11", "2.7"])]),
    ("dependencies", .list [.table [("installer", .text "system"), ("package", .text "git")]])]

/-- A document in which the name of a field is misspelt. -/
def misspelt : Data :=
  .table [("matrix", .table [("version", .texts ["3.11"])])]

theorem ofToml_strict_sparse :
    ofToml ("workdir = \"src\"\n[env]\nHOME = \"\"\n[matrix]\nversions = [\"3.11\", \"2.7\"]\n" ++
      "[[dependencies]]\ninstaller = \"system\"\npackage = \"git\"\n") =
        .ok { workdir := ⟨"src"⟩, env := .ofList [("HOME", "")],
              matrix := { versions := ["3.11", "2.7"] },
              dependencies := [{ installer := .system, package := some "git" }] } ∧
    ∃ e, ofToml "[matrix]\nversion = [\"3.11\"]\n" =
      .error (.configParse ⟨"<inline>"⟩ (.illTyped e)) := by
  have nothing {fields : List (String × Kind)} {P : Kind → Data → Prop} :
      ∀ e ∈ ([] : List (String × Data)), ∀ kind, fields.lookup e.1 = some kind → P kind e.2 :=
    List.forall_mem_nil _
  constructor
  · have written : sparse.Written kind :=
      .record <| forall_entries_cons rfl (.text _) <| forall_entries_cons rfl (.environment _) <|
        forall_entries_cons rfl (.record <| forall_entries_cons rfl (.texts _) nothing) <|
        forall_entries_cons rfl (.records <| List.forall_mem_singleton.2 <| .record <|
          forall_entries_cons rfl (.choice fun _ => Data.noConfusion) <|
          forall_entries_cons rfl (.text _) nothing) nothing
    have conforms : sparse.Conforms kind := by
      refine .record (by decide) (by decide) <| forall_entries_cons rfl (.text _) <|
        forall_entries_cons rfl (.environment [("HOME", "")]) <|
        forall_entries_cons rfl ?matrix <| forall_entries_cons rfl ?dependencies nothing
      case matrix =>
        exact .record (by decide) (by decide) <| forall_entries_cons rfl (.texts _) nothing
      case dependencies =>
        refine .records <| List.forall_mem_singleton.2 <| .record (by decide) (by decide) ?_
        exact forall_entries_cons rfl (.choice (by decide)) <|
          forall_entries_cons rfl (.text _) nothing
    refine ((ofToml_strict (d := sparse) (by cbv) written).1 _).2 ⟨conforms, ?_, rfl⟩
    refine ⟨rfl, fun name => ?_, rfl, ⟨rfl, rfl, rfl⟩, ⟨_, rfl, ?_⟩, rfl, rfl, rfl⟩
    · rw [EnvVars.get?_ofList (by decide)]
      exact EnvVars.lookup_texts [("HOME", "")] name
    · exact .cons ⟨⟨_, rfl, rfl⟩, ⟨_, rfl, rfl⟩, rfl⟩ .nil
  · have unknown : Matrix.fields.lookup "version" = none := rfl
    have written : misspelt.Written kind :=
      .record <| forall_entries_cons rfl
        (.record <| List.forall_mem_singleton.2 fun kind listed =>
          absurd (listed.symm.trans unknown) (Option.some_ne_none kind)) nothing
    refine (ofToml_strict (d := misspelt) (by cbv) written).2.2.2 fun conforms => ?_
    cases conforms with
    | record known complete typed =>
      cases typed _ (.head _) _ rfl with
      | record known complete typed => exact absurd (known _ (.head _)) (by decide)

end CoverageMatrix.Config
