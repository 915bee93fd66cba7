import LnurlCash.Certificates
import LnurlCash.MutationSecrets

namespace LnurlCash

variable {C : Crates} {name : NoteName} {domain signature mintPubkey : Str} {amountMsat : UInt64}

/-- A certificate reported as current is a `cs1` for the amount asked, signed
by the mint over the message of one domain, one amount and one note. Nothing
else a mint may sign makes that message, so a signature that recovers over one
digest only was made for this note. -/
theorem Crates.outputKey_vouches
    (reported : C.report domain amountMsat signature mintPubkey name = some .outputKey) :
    ∃ outputKey bearerHash spendDomain bytes,
      C.identify name = some (outputKey, bearerHash) ∧ C.spendDomainOf domain = some spendDomain ∧
      decodeCs1WithAmount signature = some { amountMsat, signature := bytes } ∧
      C.RecoversAs (C.lightningSignedDigest (certificateMessage spendDomain amountMsat (Hex.encode outputKey.toList)))
        (bytes.toList.take 64) (bytes.get 64) mintPubkey ∧
      ∀ statement message, isHexId (Str.trim statement.id) → C.message statement = some message →
        (message = certificateMessage spendDomain amountMsat (Hex.encode outputKey.toList) →
          C.Vouches spendDomain amountMsat outputKey statement) ∧
        (C.CollisionFree (C.signedHashed (certificateMessage spendDomain amountMsat (Hex.encode outputKey.toList)) ++
            C.signedHashed message) →
          (∀ digest, C.RecoversAs digest (bytes.toList.take 64) (bytes.get 64) mintPubkey →
            digest = C.lightningSignedDigest message) →
          C.Vouches spendDomain amountMsat outputKey statement) := by
  obtain ⟨outputKey, bearerHash, named, certified⟩ := report_eq_some.mp reported
  obtain ⟨_, spendDomain, bytes, found, cs1, recovers⟩ :=
    verifyNoteSignatureHash_iff.mp (certifiedOver_outputKey.mp certified)
  rw [Hex.trim_encode, Hex.lower_encode] at recovers
  refine ⟨outputKey, bearerHash, spendDomain, bytes, named, found, cs1, recovers, ?_⟩
  intro statement message hex made
  constructor
  · rintro rfl
    exact vouches_of_message hex made
  · intro free signedFor
    obtain rfl := lightningSignedDigest_inj free (signedFor _ recovers)
    exact vouches_of_message hex made

/-! A certificate over 1000 msat of the bearer note `freshHash` at `mint.example`, by the key 7. -/

def mintKey : Str := "025cbdf0646e5db4eaa398f365f2ea7a0e3d419b7e0330e39ce92bddedcac4f9bc".toList

def freshCertificate : Str :=
  "cs10n17qwkhyqc4dppm4qsgpxts6g8ypj4y2lc2u6qprcstnectgpr4q83fw2yg4quz7my36yaz04nxgeljhw8vc6tyex3a5glgrvttwmjtkcpwpkjxe".toList

set_option maxRecDepth 100000 in
theorem reference.report_freshCertificate :
    reference.report "mint.example".toList 1000 freshCertificate mintKey (.reference freshHash) = some .outputKey := by
  decide +kernel

theorem reference.freshCertificate_vouches :
    ∃ outputKey bearerHash bytes, reference.identify (.reference freshHash) = some (outputKey, bearerHash) ∧
      decodeCs1WithAmount freshCertificate = some { amountMsat := 1000, signature := bytes } := by
  obtain ⟨outputKey, bearerHash, _, bytes, named, _, cs1, _⟩ :=
    Crates.outputKey_vouches reference.report_freshCertificate
  exact ⟨outputKey, bearerHash, bytes, named, cs1⟩

end LnurlCash
