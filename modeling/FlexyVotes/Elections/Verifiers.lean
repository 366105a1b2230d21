/-
# The two verifiers side by side

`verify_bundle` of the platform and `tools/verify_election.py` make the same
checks of a bundle, but for two things. The offline verifier compares the root
that the bulletin board comes with; the platform computes the root of the
trackers only, and only to compare it with the certified one. And the platform
strips what it decodes from base64, the offline verifier decodes it as it is.

Key definitions: `platform`, `Common`, `Signed`.
Key theorems: `verifiers_agree`.
-/
import FlexyVotes.Elections.Verification

namespace FlexyVotes
namespace Verification

/-- The primitives as the platform uses them, where those of the offline verifier
are `E`: `crypto.b64d` strips the signature and the key. -/
def platform (E : Env) : Env :=
  { E with verifySignature := fun payload signature key => E.verifySignature payload (E.strip signature) (E.strip key) }

/-- The signatures of the bundle verify. -/
structure Signed (E : Env) (b : Bundle) : Prop where
  configuration : ∀ c, b.configuration = some c → E.verifySignature c.config.canonicalJson c.signature c.publicKey = true
  certification : ∀ c, b.certification = some c →
    E.verifySignature (Json.obj c.payload).canonicalJson c.signature c.publicKey = true

/-- What both check of a certification, beside its signature. -/
structure Certifies (E : Env) (b : Bundle) (c : SignedCertification) : Prop where
  board : ∃ root, merkleRoot E.sha256Bytes b.trackers = some root ∧ Json.get? c.payload "bulletin_root" = some (.str root)
  result : ∀ data, b.result = some data → Json.get? c.payload "result_hash" = some (.str (Results.resultHash E data))
  configuration : ∀ k, b.configuration = some k → Json.get? c.payload "config_hash" = some (.str k.configHash)
  trusted : c.publicKey ∈ b.verificationKeys

/-- What both check, beside the signatures. -/
structure Common (E : Env) (b : Bundle) : Prop where
  configuration : ∀ c, b.configuration = some c → hashOf E c.config = c.configHash
  certification : ∀ c, b.certification = some c → Certifies E b c

theorem isStr_iff {s : String} {o : Option Json} : isStr s o = true ↔ o = some (.str s) := by
  unfold isStr
  split <;> simp_all

/-- The configuration's checks, on either side. -/
theorem configuration_ok {E : Env} {b : Bundle} : ((b.configuration.map (configurationChecks E)).getD []).all (·.ok) = true ↔
    ∀ c, b.configuration = some c → hashOf E c.config = c.configHash ∧
      E.verifySignature c.config.canonicalJson c.signature c.publicKey = true := by
  rcases b.configuration with _ | c
  · simp
  · simp [configurationChecks]

/-- The certification's checks of the platform. -/
theorem certification_ok {E : Env} {b : Bundle} {c : SignedCertification} {root : String} :
    (certificationChecks E b c root).all (·.ok) = true ↔
      E.verifySignature (Json.obj c.payload).canonicalJson c.signature c.publicKey = true ∧
      Json.get? c.payload "bulletin_root" = some (.str root) ∧
      (∀ data, b.result = some data → Json.get? c.payload "result_hash" = some (.str (Results.resultHash E data))) ∧
      (∀ k, b.configuration = some k → Json.get? c.payload "config_hash" = some (.str k.configHash)) ∧
      c.publicKey ∈ b.verificationKeys := by
  unfold certificationChecks
  rcases b.result with _ | data <;> rcases b.configuration with _ | k <;> simp [isStr_iff]

/-- The offline verifier makes the same checks of the certification. -/
theorem offline_ok {E : Env} {b : Bundle} {c : SignedCertification} {root : String} :
    (offlineCertificationChecks E {} b c root).all (·.ok) = (certificationChecks E b c root).all (·.ok) := by
  unfold offlineCertificationChecks certificationChecks
  rcases b.result with _ | data <;> rcases b.configuration with _ | k <;>
    simp [Arguments.trusted, Bool.and_left_comm]

/-- **What `verify_bundle` passes.** -/
theorem verifyBundle_passes {E : Env} {b : Bundle} : passes (verifyBundle E b) = true ↔ Common E b ∧ Signed E b := by
  unfold verifyBundle passes
  dsimp only
  rcases hc : b.certification with _ | c
  · rw [Option.any_some, configuration_ok]
    refine ⟨fun h => ⟨⟨fun c hc => (h c hc).1, fun c hc' => ?_⟩, fun c hc => (h c hc).2, fun c hc' => ?_⟩,
      fun h c hc => ⟨h.1.configuration c hc, h.2.configuration c hc⟩⟩
    · rw [hc] at hc'
      cases hc'
    · rw [hc] at hc'
      cases hc'
  · dsimp only
    rcases hroot : merkleRoot E.sha256Bytes b.trackers with _ | root
    · refine ⟨fun h => absurd h (by simp), fun h => ?_⟩
      obtain ⟨root, hroot', -⟩ := (h.1.certification c hc).board
      rw [hroot] at hroot'
      cases hroot'
    · rw [Option.map_some, Option.any_some, List.all_append, Bool.and_eq_true, configuration_ok, certification_ok]
      refine ⟨fun h => ⟨⟨fun k hk => (h.1 k hk).1, fun c' hc' => ?_⟩, fun k hk => (h.1 k hk).2, fun c' hc' => ?_⟩,
        fun h => ⟨fun k hk => ⟨h.1.configuration k hk, h.2.configuration k hk⟩, h.2.certification c hc, ?_⟩⟩
      · obtain rfl := Option.some.inj (hc.symm.trans hc')
        exact ⟨⟨root, hroot, h.2.2.1⟩, h.2.2.2.1, h.2.2.2.2.1, h.2.2.2.2.2⟩
      · obtain rfl := Option.some.inj (hc.symm.trans hc')
        exact h.2.1
      · obtain ⟨⟨root', hroot', hboard⟩, hresult, hconfiguration, htrusted⟩ := h.1.certification c hc
        obtain rfl := Option.some.inj (hroot.symm.trans hroot')
        exact ⟨hboard, hresult, hconfiguration, htrusted⟩

/-- **What `verify_election.py` passes**: what `verify_bundle` does, where the
board comes with its root. -/
theorem verifyElection_passes {E : Env} {b : Bundle} : passes (verifyElection E {} b) = true ↔
    passes (verifyBundle E b) = true ∧ merkleRoot E.sha256Bytes b.trackers = some b.merkleRoot := by
  have hconfiguration : ((b.configuration.map fun c : SignedConfiguration =>
      [Check.mk "configuration hash" (hashOf E c.config = c.configHash)
        (.str (String.ofList (c.configHash.toList.take 16))),
       Check.mk "configuration signature" (E.verifySignature c.config.canonicalJson c.signature c.publicKey)
        (.str "")]).getD []).all (·.ok) = ((b.configuration.map (configurationChecks E)).getD []).all (·.ok) := by
    rcases b.configuration with _ | c
    · rfl
    · rfl
  unfold verifyElection verifyBundle passes
  dsimp only
  rcases hroot : merkleRoot E.sha256Bytes b.trackers with _ | root
  · simp
  · rw [Option.map_some, Option.any_some, List.all_append, List.all_append, List.all_append, hconfiguration]
    rcases hc : b.certification with _ | c
    · simp
    · dsimp only
      rw [Option.map_some, Option.map_some, Option.getD_some, Option.any_some, List.all_append, offline_ok]
      simp only [List.all_cons, List.all_nil, Bool.and_true, Bool.and_eq_true, decide_eq_true_eq, Option.some.injEq]
      constructor
      · rintro ⟨⟨h, hroot⟩, hc⟩
        exact ⟨⟨h, hc⟩, hroot⟩
      · rintro ⟨⟨h, hc⟩, hroot⟩
        exact ⟨⟨h, hroot⟩, hc⟩

theorem common_platform {E : Env} {b : Bundle} : Common (platform E) b ↔ Common E b :=
  ⟨fun h => ⟨h.configuration, fun c hc => ⟨(h.certification c hc).board, (h.certification c hc).result,
      (h.certification c hc).configuration, (h.certification c hc).trusted⟩⟩,
    fun h => ⟨h.configuration, fun c hc => ⟨(h.certification c hc).board, (h.certification c hc).result,
      (h.certification c hc).configuration, (h.certification c hc).trusted⟩⟩⟩

/-- **When the verifiers agree**: where one of their common checks fails, or the
signatures verify stripped if and only if they do as they are and the board comes
with the root of its trackers. -/
theorem verifiers_agree (E : Env) (b : Bundle) :
    (passes (verifyBundle (platform E) b) = true ↔ passes (verifyElection E {} b) = true) ↔
      (Common E b → (Signed (platform E) b ↔
        Signed E b ∧ merkleRoot E.sha256Bytes b.trackers = some b.merkleRoot)) := by
  rw [verifyElection_passes, verifyBundle_passes, verifyBundle_passes, common_platform, and_assoc]
  exact and_congr_right_iff

/-- **A board with another root passes the platform only.** -/
theorem not_verifiers_agree :
    ¬ ∀ (E : Env) (b : Bundle),
      passes (verifyBundle (platform E) b) = true ↔ passes (verifyElection E {} b) = true := by
  intro h
  have hsame := h numbered { boardUnder (certifiedBoard ["aa"]) ["aa"] with merkleRoot := "00" }
  revert hsame
  decide +kernel

end Verification
end FlexyVotes
