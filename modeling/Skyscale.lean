import Skyscale.Auth.Spend
import Skyscale.DataPlane.Grouping
import Skyscale.DataPlane.Isolation
import Skyscale.DataPlane.Migration
import Skyscale.DataPlane.Publication
import Skyscale.Deployment.Slugs
import Skyscale.Providers.Akash
import Skyscale.Providers.Fairness
import Skyscale.Providers.Stopped
import Skyscale.RL.Cancellation
import Skyscale.RL.Progress
import Skyscale.RL.Promotion
import Skyscale.RL.Quota
import Skyscale.RL.Retries
import Skyscale.RL.RoundTrip
import Skyscale.RL.Suspension
import Skyscale.RL.Verdict
import Skyscale.Sandbox.Destruction
import Skyscale.Sandbox.Exclusion
import Skyscale.State.FairClaims
import Skyscale.Training.TreeHash
import Skyscale.Weights.Collection
import Skyscale.Weights.Expiry
import Skyscale.Weights.Fleet
import Skyscale.Weights.Order
import Skyscale.Weights.Republication
import Skyscale.Weights.Rollback
