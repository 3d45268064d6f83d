import CoverageMatrix.Proofs.Config.Json
import CoverageMatrix.Proofs.Json.Reading
import CoverageMatrix.Proofs.Matrix.Jobs
import CoverageMatrix.Proofs.Text.Bytes

/-!
# What a digest stands for

The canonical text of a configuration can be read back, so that two configurations have the same
only if they are the same. All that is left to the hash function is to have no collision among the
texts that are digested.
-/
namespace CoverageMatrix

/-- Two different messages with the same digest. -/
def Sha256.Collision (a b : List UInt8) : Prop :=
  a ≠ b ∧ digest a = digest b

namespace Sha256

variable {s t : String}

theorem ofText_eq_iff : ofText s = ofText t ↔
    s = t ∨ Collision (Text.Utf8.encode s) (Text.Utf8.encode t) := by
  constructor
  · intro same
    have digests : digest (Text.Utf8.encode s) = digest (Text.Utf8.encode t) :=
      Text.Hex.encode_injective (String.ofList_injective same)
    by_cases bytes : Text.Utf8.encode s = Text.Utf8.encode t
    · exact .inl (Text.Utf8.encode_injective bytes)
    · exact .inr ⟨bytes, digests⟩
  · rintro (rfl | ⟨-, digests⟩)
    · rfl
    · rw [ofText, ofText, hexDigest, hexDigest, digests]

theorem utf8Size_of_mem_ofText {c : Char} (mem : c ∈ (ofText s).toList) : c.utf8Size = 1 := by
  have digits : ∀ n < 16, (Text.Hex.digit n).utf8Size = 1 := by decide
  rw [ofText, hexDigest, String.toList_ofList, Text.Hex.encode] at mem
  obtain ⟨b, -, mem⟩ := List.mem_flatMap.mp mem
  have below : b.toNat < 256 := b.toNat_lt
  simp only [List.mem_cons, List.not_mem_nil, or_false] at mem
  rcases mem with rfl | rfl
  · exact digits _ (by omega)
  · exact digits _ (by omega)

theorem length_ofText (s : String) : (ofText s).toList.length = 64 := by
  simp [ofText, hexDigest, Text.Hex.length_encode, length_digest]

end Sha256

namespace Config

variable {c d : Config} {i : Job}

/-! ## Canonical texts -/

theorem InRange.withoutId (h : c.InRange) : c.withoutId.InRange :=
  ⟨h.parallelism, h.helperTimeout, h.testTimeout⟩

theorem decode_canonicalText (h : c.InRange) :
    Json.decode (decode .json) c.canonicalText = .ok c.withoutId := by
  have exact := (isExact_toData h.withoutId).mono (n := Json.depthLimit) (by decide)
  rw [canonicalText, Json.decode_compact _ exact]
  exact decode_toData .json h.withoutId

theorem canonicalText_eq_iff (hc : c.InRange) (hd : d.InRange) :
    c.canonicalText = d.canonicalText ↔ c.withoutId = d.withoutId := by
  constructor
  · intro same
    have read := decode_canonicalText hd
    rw [← same, decode_canonicalText hc] at read
    exact Except.ok.inj read
  · intro same
    rw [canonicalText, canonicalText, same]

/-- The bytes that are digested for a configuration. -/
def canonicalBytes (c : Config) : List UInt8 :=
  Text.Utf8.encode c.canonicalText

theorem digest_eq_iff (hc : c.InRange) (hd : d.InRange) :
    c.digest = d.digest ↔
      c.withoutId = d.withoutId ∨ Sha256.Collision c.canonicalBytes d.canonicalBytes := by
  rw [digest, digest, Sha256.ofText_eq_iff, canonicalText_eq_iff hc hd]
  rfl

/-! ## Digests of jobs -/

/-- The bytes that are digested for the job of a version. -/
def jobBytes (c : Config) (version : String) : List UInt8 :=
  Text.Utf8.encode (c.digest ++ "\x00" ++ version)

theorem jobDigest_eq_iff {version version' : String} :
    jobDigest c.digest version = jobDigest d.digest version' ↔
      (c.digest = d.digest ∧ version = version') ∨
        Sha256.Collision (c.jobBytes version) (d.jobBytes version') := by
  have framed : c.digest ++ "\x00" ++ version = d.digest ++ "\x00" ++ version' ↔
      c.digest = d.digest ∧ version = version' := by
    constructor
    · intro same
      -- digests are all of one length
      have width : (c.digest ++ "\x00").toList.length = (d.digest ++ "\x00").toList.length := by
        simp [digest, Sha256.length_ofText]
      have texts := congrArg String.toList same
      rw [String.toList_append, String.toList_append (s := d.digest ++ "\x00")] at texts
      obtain ⟨front, version⟩ := List.append_inj texts width
      rw [String.toList_inj] at front version
      exact ⟨(String.append_left_inj _).mp front, version⟩
    · rintro ⟨digest, rfl⟩
      rw [digest]
  rw [jobDigest, jobDigest, Sha256.ofText_eq_iff, framed]
  rfl

theorem digest_of_mem_jobs (h : i ∈ c.jobs) : i.digest = jobDigest c.digest i.version := by
  obtain ⟨place, version, -, rfl⟩ := exists_of_mem_jobsFrom h
  rfl

/-- A job can be named for short: its digest has no character of more than one byte, in which it
could not be cut. -/
theorem shortDigest?_of_mem_jobs (h : i ∈ c.jobs) :
    i.shortDigest? = some (String.ofList (i.digest.toList.take Job.shortDigestLength)) := by
  rw [digest_of_mem_jobs h, Job.shortDigest?, digest_of_mem_jobs h, jobDigest,
    Text.Utf8.take_encode _ _ fun _ => Sha256.utf8Size_of_mem_ofText, Text.Utf8.ofBytes?_encode]

/-- Digests identify what they are made of, unless the hash function has a collision among the
bytes that were digested: a configuration up to its identifier, and a job by its configuration and
its version. -/
theorem digests_identify (hc : c.InRange) (hd : d.InRange) :
    (c.digest = d.digest ↔
      c.withoutId = d.withoutId ∨ Sha256.Collision c.canonicalBytes d.canonicalBytes) ∧
    ∀ jobs jobs' i j, c.expand = .ok jobs → d.expand = .ok jobs' → i ∈ jobs → j ∈ jobs' →
      (i.digest = j.digest ↔
        ((c.withoutId = d.withoutId ∨ Sha256.Collision c.canonicalBytes d.canonicalBytes) ∧
            i.version = j.version) ∨
          Sha256.Collision (c.jobBytes i.version) (d.jobBytes j.version)) := by
  refine ⟨digest_eq_iff hc hd, fun jobs jobs' i j expanded expanded' hi hj => ?_⟩
  obtain ⟨-, rfl⟩ := expand_eq_ok_iff.mp expanded
  obtain ⟨-, rfl⟩ := expand_eq_ok_iff.mp expanded'
  rw [digest_of_mem_jobs hi, digest_of_mem_jobs hj, jobDigest_eq_iff, digest_eq_iff hc hd]

/-- A configuration in which a project has its identifier. -/
def identified : Config :=
  { reporter := { id := some "token" } }

theorem digests_identify_identified :
    identified ≠ {} ∧ identified.digest = ({} : Config).digest ∧
      ∃ i ∈ identified.jobs, ∃ j ∈ ({} : Config).jobs, i.digest = j.digest := by
  have range : identified.InRange := ⟨by decide, by decide, by decide⟩
  have range' : ({} : Config).InRange := ⟨by decide, by decide, by decide⟩
  obtain ⟨configs, jobs⟩ := digests_identify range range'
  refine ⟨by decide, configs.mpr (.inl rfl), identified.job 1 "2.7", List.mem_cons_self,
    ({} : Config).job 1 "2.7", List.mem_cons_self, ?_⟩
  exact (jobs _ _ _ _ rfl rfl List.mem_cons_self List.mem_cons_self).mpr (.inl ⟨.inl rfl, rfl⟩)

end Config
end CoverageMatrix
