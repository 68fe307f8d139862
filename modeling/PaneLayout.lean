import PaneLayout.Command.Run
import PaneLayout.Datum.Config
import PaneLayout.Datum.Document
import PaneLayout.Datum.Outcome
import PaneLayout.Journal
import PaneLayout.Layout.Assign
import PaneLayout.Main
import PaneLayout.Scalar.Rational
import PaneLayout.Proofs.Run
import PaneLayout.Proofs.Native
import PaneLayout.Proofs.Shape
import PaneLayout.Proofs.Plan
import PaneLayout.Proofs.LinkCheck
import PaneLayout.Proofs.Registry
import PaneLayout.Proofs.Survey
import PaneLayout.Proofs.Growth
import PaneLayout.Proofs.Creating
import PaneLayout.Proofs.Sections
import PaneLayout.Proofs.Applied
import PaneLayout.Proofs.Bundle
import PaneLayout.Proofs.Outcome
import PaneLayout.Proofs.Coverage
import PaneLayout.Proofs.EarlyErrors
import PaneLayout.Proofs.Validity
import PaneLayout.Proofs.Result
import PaneLayout.Proofs.LinkFidelity
import PaneLayout.Proofs.Reachable
import PaneLayout.Proofs.Effects
import PaneLayout.Proofs.Progress
import PaneLayout.Proofs.Settled
import PaneLayout.Proofs.Reapplication
import PaneLayout.Proofs.Outline
import PaneLayout.Proofs.Topology
import PaneLayout.Proofs.Proportions
import PaneLayout.Proofs.Closed
import PaneLayout.Proofs.Steady
import PaneLayout.Proofs.Standing
import PaneLayout.Proofs.Deferral
import PaneLayout.Proofs.Trace
import PaneLayout.Proofs.Sending
import PaneLayout.Proofs.Protocol
import PaneLayout.Proofs.Inventory
import PaneLayout.Proofs.Pairs
import PaneLayout.Proofs.Renaming
import PaneLayout.Proofs.Opaque
import PaneLayout.Proofs.Retry
import PaneLayout.Proofs.Recovery
import PaneLayout.Proofs.Refolding
import PaneLayout.Proofs.ReadBack
import PaneLayout.Proofs.Keeping
import PaneLayout.Proofs.History
import PaneLayout.Proofs.RoundTrip
import PaneLayout.Proofs.Relowering
import PaneLayout.Proofs.Failure
import PaneLayout.Proofs.Independence
import PaneLayout.Proofs.Transmission
import PaneLayout.Proofs.Consistency
import PaneLayout.Proofs.Guesses
import PaneLayout.Proofs.Drift
import PaneLayout.Proofs.Supply
import PaneLayout.Proofs.Planning
import PaneLayout.Proofs.Violations
import PaneLayout.Proofs.Ratios
import PaneLayout.Proofs.Numbering
import PaneLayout.Proofs.Substitution
import PaneLayout.Proofs.Queue
import PaneLayout.Proofs.Dangling
import PaneLayout.Proofs.Pinning
import PaneLayout.Proofs.BoundValidity
import PaneLayout.Proofs.Stopping
import PaneLayout.Proofs.Uncached
import PaneLayout.Proofs.Visits
import PaneLayout.Proofs.Options
import PaneLayout.Proofs.Snapshot
import PaneLayout.Proofs.TableNames
