import Skyscale.Contracts.Sample
import Skyscale.K8s.Objects
import Skyscale.Lib.Program
import Skyscale.Weights.Model

/-!
# What the control plane calls

Handlers, reconcile passes and queue workers are programs (`Lib.Prog`) over the
operations listed here: single database statements, calls of the Kubernetes client,
of the weight service, of the grouped sample store and of the compute providers, the
clock, and the generator of run identifiers.

`exec` is the world they run in: the database behaves as `Lib.Database.Exec` says,
identifiers of new runs are unused and of the generated form, and everything else may
answer anything.
-/

namespace Skyscale
namespace Control

open Lib State K8s Contracts

/-- An error of the Kubernetes client; `apierrors.IsNotFound` recognises the first
kind. -/
inductive ClientError
  | notFound (text : String)
  | other (text : String)

def ClientError.text : ClientError → String
  | notFound text => text
  | other text => text

/-- `dataplane.Lease`, as the claim handler uses it. -/
structure Lease where
  id : String
  promptGroupID : String
  owner : String

/-- Why a claim of samples failed. -/
inductive ClaimError
  | noCompleteGroup
  | other (text : String)

/-- `providers.DeploySpec`. -/
structure DeploySpec where
  dockerImage : String
  gpuModel : String
  providerName : String
  envVars : FinMap String String
  executionID : String
  jobID : String
  controlPlaneURL : String

/-- `providers.DeployResult`. -/
structure DeployResult where
  deploymentID : String
  providerName : String
  providerAddr : String

/-- One operation of a program. -/
inductive Op
  | sql (q : Statement schema)
  | apply (object : Object)
  | getObject (kind : Kind) (namespace_ name : String)
  | listObjects (kind : Kind) (namespace_ selector : String)
  | deleteObject (kind : Kind) (namespace_ name : String)
  | markGood (runID version : String)
  | rollback (runID reason : String)
  | publish (manifest : Weights.Manifest) (requiredEngines : List String) (timeoutSeconds : Int)
  | materialize (runID version : String)
  | acknowledge (runID engineID version checksum : String)
  | claimGroup (tenantID runID : String) (expectedGroupSize : Int) (owner : String)
      (leaseSeconds : Int)
  | ackLease (leaseID owner : String)
  | nackLease (leaseID owner reason : String)
  | backpressure (tenantID runID : String)
  | acquireFairClaimTurn (tenantID runID owner : String)
  | terminate (sandboxID : String)
  | dispatch (spec : DeploySpec)
  | newRunID (digits : Nat)
  | now

/-- What an operation answers. -/
def Ans : Op → Type
  | .sql q => q.Reply
  | .apply _ => Except ClientError Object
  | .getObject _ _ _ => Except ClientError Object
  | .listObjects _ _ _ => Except ClientError (List Object)
  | .deleteObject _ _ _ => Except ClientError Unit
  | .markGood _ _ => Except String Unit
  | .rollback _ _ => Except String String
  | .publish _ _ _ => Except String Unit
  | .materialize _ _ => Except String (String × String)
  | .acknowledge _ _ _ _ => Except String Bool
  | .claimGroup _ _ _ _ _ => Except ClaimError (Lease × List SampleEnvelope)
  | .ackLease _ _ => Except String Unit
  | .nackLease _ _ _ => Except String Unit
  | .backpressure _ _ => Except String (Bool × Int)
  | .acquireFairClaimTurn _ _ _ => Except String Bool
  | .terminate _ => Except String Unit
  | .dispatch _ => Except String DeployResult
  | .newRunID _ => String
  | .now => Int

/-- The answer is an error. -/
def failed : (op : Op) → Ans op → Bool
  | .sql (.first _ _ _), .error _ => true
  | .sql (.find _ _ _ _), .error _ => true
  | .sql (.count _ _), .error _ => true
  | .sql (.save _ _), .error _ => true
  | .sql (.insert _ _ _), .error _ => true
  | .sql (.update _ _ _ _), .error _ => true
  | .sql (.delete _ _), .error _ => true
  | .apply _, .error _ => true
  | .getObject _ _ _, .error _ => true
  | .listObjects _ _ _, .error _ => true
  | .deleteObject _ _ _, .error _ => true
  | .markGood _ _, .error _ => true
  | .rollback _ _, .error _ => true
  | .publish _ _ _, .error _ => true
  | .materialize _ _, .error _ => true
  | .acknowledge _ _ _ _, .error _ => true
  | .claimGroup _ _ _ _ _, .error _ => true
  | .ackLease _ _, .error _ => true
  | .nackLease _ _ _, .error _ => true
  | .backpressure _ _, .error _ => true
  | .acquireFairClaimTurn _ _ _, .error _ => true
  | .terminate _, .error _ => true
  | .dispatch _, .error _ => true
  | _, _ => false

/-- A program of the control plane. -/
abbrev Program (α : Type) : Type := Prog Op Ans α

/-- The program of one operation. -/
def call (op : Op) : Program (Ans op) := Prog.perform op

/-- The database of the control plane. -/
abbrev World : Type := Database schema

section Rows

variable (w : World) {w' : World} {t t' : schema.Table}

theorem row_save (r : schema.Row t) (k : schema.Key t) :
    (w.save t r).row t k = if k = schema.key t r then some r else w.row t k :=
  Database.row_save w r k

theorem row_save_self (r : schema.Row t) : (w.save t r).row t (schema.key t r) = some r :=
  Database.row_save_self w r

theorem table_save_of_ne (r : schema.Row t) (h : t' ≠ t) : (w.save t r).table t' = w.table t' :=
  Database.table_save_of_ne w r h

variable {w}

theorem row_congr (h : w'.table t = w.table t) (k : schema.Key t) : w'.row t k = w.row t k :=
  Database.row_congr h k

theorem row_empty_ne {k : schema.Key t} {r : schema.Row t} :
    (Database.empty : World).row t k ≠ some r :=
  Database.row_empty_ne k r

theorem mem_rows_iff {r : schema.Row t} : r ∈ w.rows t ↔ w.row t (schema.key t r) = some r :=
  Database.mem_rows_iff

end Rows

/-- What `"rl-" + uuid.New().String()[:digits]` looks like. -/
def generatedRunID (digits : Nat) (id : String) : Bool :=
  id.length = 3 + digits && "rl-".toList.isPrefixOf id.toList

/-- The effect of an operation on the world, and its possible answers. -/
def exec (w : World) : (op : Op) → Ans op → World → Prop
  | .sql q, ans, w' => w.Exec q ans w'
  | .newRunID digits, id, w' =>
    w' = w ∧ w.row .runs id = none ∧ generatedRunID digits id = true
  | _, _, w' => w' = w

end Control
end Skyscale
