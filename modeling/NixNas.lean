import NixNas.Guard
import NixNas.Update.Consistency
import NixNas.History
import NixNas.Entry
import NixNas.Lib.Segments
import NixNas.Lib.Percent
import NixNas.Lib.Quote
import NixNas.Lib.Regex
import NixNas.Lib.Fields
import NixNas.Caddy.Render
import NixNas.Caddy.Sites
import NixNas.Caddy.Routes
import NixNas.Caddy.Patterns
import NixNas.Caddy.Shadowing
import NixNas.Caddy.Groups
import NixNas.Caddy.Headers
import NixNas.Caddy.Forgery
import NixNas.Reconcile.Rollback
import NixNas.Session.Names
import NixNas.Spec.Yaml
import NixNas.Pruning
import NixNas.Network.Agreement
import NixNas.Network.Gates
import NixNas.Network.Vrf
import NixNas.Compose.Disjoint
import NixNas.Spec.Defaults
import NixNas.Operation.Exclusion
import NixNas.Editor.Handover
import NixNas.Systemd.Collisions
import NixNas.Reconcile.Acceptance
import NixNas.Editor.Edited
import NixNas.State.Digest
import NixNas.State.Extracted
import NixNas.Authentik.Removal
import NixNas.Secret.Cleanup
import NixNas.Setup.Stages
import NixNas.Lib.Inevitable
import NixNas.Setup.FirstRun
import NixNas.Apply.Report
import NixNas.Guard.Atomic
import NixNas.Lib.Precedence
import NixNas.Backup.Exclusive
import NixNas.Identity.Authority
import NixNas.Identity.Administrators
import NixNas.Session.Private
import NixNas.Session.Complete
import NixNas.Firewalld.Ports
import NixNas.Authentik.Accepted
import NixNas.Firewalld.Checked
import NixNas.Firewalld.Rules
import NixNas.Lib.Digraph
import NixNas.Spec.Dependency
import NixNas.Spec.Alias
import NixNas.Session.Contained
import NixNas.Spec.Preserved
import NixNas.Spec.Idempotent
import NixNas.Spec.Shape
import NixNas.Lib.Lines
import NixNas.Setup.Devices
import NixNas.Lib.UnitSyntax
import NixNas.Lib.UnitFile
import NixNas.Lib.Loop
import NixNas.Compose.Structure
import NixNas.Compose.References
import NixNas.Compose.Rewritten
import NixNas.Compose.Owned
import NixNas.Compose.Closed
import NixNas.Systemd.Quoting
import NixNas.Accelerator.Candidates
import NixNas.Lib.Association
import NixNas.Identity.ProxyApplication
import NixNas.Identity.Snapshot
import NixNas.Identity.Undo
import NixNas.Identity.Transaction
import NixNas.Accelerator.Probe
import NixNas.Accelerator.Offers
import NixNas.Accelerator.Distinct
import NixNas.Accelerator.Quantity
import NixNas.Watch.Selectors
import NixNas.Firewalld.Manifest
import NixNas.State.RolledBack
import NixNas.Syncthing.Resumed
import NixNas.Backup.Readable
import NixNas.Accounts.Uncertain
import NixNas.Transactions.Applied
import NixNas.Firewalld.Converged
import NixNas.SetupApi.Newest
import NixNas.State.RoundTrip
