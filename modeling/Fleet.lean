import Fleet.Docker.Client
import Fleet.Drill.Script
import Fleet.Main
import Fleet.Proofs.Cancellation
import Fleet.Proofs.Cascade
import Fleet.Proofs.Checks
import Fleet.Proofs.ColdStart
import Fleet.Proofs.Convoy
import Fleet.Proofs.Creation
import Fleet.Proofs.Fingerprint
import Fleet.Proofs.FirstFailure
import Fleet.Proofs.FirstPass
import Fleet.Proofs.Foreign
import Fleet.Proofs.Interleaving
import Fleet.Proofs.Listing
import Fleet.Proofs.Marking
import Fleet.Proofs.Misnumbered
import Fleet.Proofs.Missing
import Fleet.Proofs.Networks
import Fleet.Proofs.Numbers
import Fleet.Proofs.Precedence
import Fleet.Proofs.Queue
import Fleet.Proofs.ReadBack
import Fleet.Proofs.Readiness
import Fleet.Proofs.Shell
import Fleet.Proofs.Spreading
import Fleet.Proofs.Stuck
import Fleet.Proofs.Tally
import Fleet.Proofs.Tenure
import Fleet.Proofs.Verdicts
import Fleet.Rollout
import Fleet.Yaml.Load
