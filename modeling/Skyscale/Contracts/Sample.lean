import Skyscale.Contracts.RunSpec

/-!
# Grouped samples

`SampleEnvelope` of `control-plane/contracts/v1.go` and its validation.
-/

namespace Skyscale
namespace Contracts

open Lib

structure SampleEnvelope where
  apiVersion : String
  tenantID : String
  projectID : String
  runID : String
  attemptID : String
  rolloutID : String
  promptGroupID : String
  sampleID : String
  promptTokenIDs : List Int
  responseTokenIDs : List Int
  responseStart : Int
  lossMask : List Rat
  behaviorLogProbs : List Rat
  rewardComponents : FinMap String Rat
  status : String
  policyVersion : String
  environmentVersion : String
  generatedAt : Int
  metadata : FinMap String String
deriving DecidableEq, Inhabited

/-- `SampleEnvelope.Validate`. -/
def SampleEnvelope.validate (s : SampleEnvelope) (maxTokens : Int) : Except String Unit :=
  let total : Int := s.promptTokenIDs.length + s.responseTokenIDs.length
  if s.apiVersion ≠ Contracts.apiVersion ∨ s.tenantID = "" ∨ s.projectID = "" ∨ s.runID = "" ∨
      s.attemptID = "" ∨ s.rolloutID = "" ∨ s.promptGroupID = "" ∨ s.sampleID = "" ∨
      s.policyVersion = "" ∨ s.environmentVersion = "" ∨ s.generatedAt = 0 then
    .error "sample version and lineage identifiers are required"
  else if total = 0 ∨ total > maxTokens then
    .error ("sample token count " ++ toString total ++ " outside allowed range")
  else if s.responseStart ≠ s.promptTokenIDs.length then
    .error "response start must equal prompt token length"
  else if s.lossMask.length ≠ s.responseTokenIDs.length then
    .error "loss mask length must equal response token length"
  else if s.behaviorLogProbs.length ≠ 0 ∧
      s.behaviorLogProbs.length ≠ s.responseTokenIDs.length then
    .error "behavior log probability length must equal response token length"
  else
    .ok ()

end Contracts
end Skyscale
