import ServerDeploy.Log.Timing
import ServerDeploy.Main
import ServerDeploy.Rehearsal.Description
import ServerDeploy.Proofs.Decimal.Magnitude
import ServerDeploy.Proofs.World.Conversation
import ServerDeploy.Proofs.World.Reading
import ServerDeploy.Proofs.World.Endings
import ServerDeploy.Proofs.World.Deadline
import ServerDeploy.Proofs.World.Tree
import ServerDeploy.Proofs.World.Retrying
import ServerDeploy.Proofs.Fault.Kinds
import ServerDeploy.Proofs.Fault.Values
import ServerDeploy.Proofs.Session.Asking
import ServerDeploy.Proofs.Session.Sending
import ServerDeploy.Proofs.Session.Call
import ServerDeploy.Proofs.Session.Steps
import ServerDeploy.Proofs.Session.Lifetime
import ServerDeploy.Proofs.Session.Journal
import ServerDeploy.Proofs.Session.Discretion
import ServerDeploy.Proofs.Session.Repetition
import ServerDeploy.Proofs.Session.Sparing
import ServerDeploy.Proofs.Session.Survey
import ServerDeploy.Proofs.Session.ManagementServer
import ServerDeploy.Proofs.Session.Connected
import ServerDeploy.Proofs.Session.CompositeRun
import ServerDeploy.Proofs.Session.Passing
import ServerDeploy.Proofs.Session.Reaching
import ServerDeploy.Proofs.Session.Endings
import ServerDeploy.Proofs.Session.Holding
import ServerDeploy.Proofs.Session.Lapsing
import ServerDeploy.Proofs.Session.Concluding
import ServerDeploy.Proofs.Session.Shutting
import ServerDeploy.Proofs.Session.Classifying
import ServerDeploy.Proofs.Server.Looking
import ServerDeploy.Proofs.Server.Endings
import ServerDeploy.Proofs.Server.Denial
import ServerDeploy.Proofs.Server.Stopping
import ServerDeploy.Proofs.Server.Awaiting
import ServerDeploy.Proofs.Server.Unpacking
import ServerDeploy.Proofs.Model.AddressText
import ServerDeploy.Proofs.Model.AddressGrammar
import ServerDeploy.Proofs.Model.NativeValue
import ServerDeploy.Proofs.Model.MemberPath
import ServerDeploy.Proofs.TypedLiteral.Tokens
import ServerDeploy.Proofs.TypedLiteral.Values
import ServerDeploy.Proofs.TypedLiteral.Spelling
import ServerDeploy.Proofs.TypedLiteral.Progress
import ServerDeploy.Proofs.TypedLiteral.Overlong
import ServerDeploy.Proofs.TypedLiteral.Stepping
import ServerDeploy.Proofs.TypedLiteral.Endings
import ServerDeploy.Proofs.Command.Nesting
import ServerDeploy.Proofs.Command.Cutting
import ServerDeploy.Proofs.Command.Grammar
import ServerDeploy.Proofs.Command.Frame
import ServerDeploy.Proofs.Command.Writing
import ServerDeploy.Proofs.Artifact.Offline
import ServerDeploy.Proofs.Artifact.Endings
import ServerDeploy.Proofs.Artifact.Saving
import ServerDeploy.Proofs.Artifact.Depositing
import ServerDeploy.Proofs.Artifact.Searching
import ServerDeploy.Proofs.Resource.Placement
import ServerDeploy.Proofs.Resource.Expansion
import ServerDeploy.Proofs.Resource.Composing
import ServerDeploy.Proofs.Resource.Requests
import ServerDeploy.Proofs.Resource.Course
import ServerDeploy.Proofs.Resource.HookRun
import ServerDeploy.Proofs.Resource.Attributes
import ServerDeploy.Proofs.Resource.Batches
import ServerDeploy.Proofs.Resource.ResourceTree
import ServerDeploy.Proofs.Resource.ResourceServer
import ServerDeploy.Proofs.Resource.Building
import ServerDeploy.Proofs.Resource.Readdition
import ServerDeploy.Proofs.Resource.Outline
import ServerDeploy.Proofs.Resource.Endings
import ServerDeploy.Proofs.Resource.Reporting
import ServerDeploy.Proofs.Resource.DryRun
import ServerDeploy.Proofs.Resource.Refusal
import ServerDeploy.Proofs.Resource.Children
import ServerDeploy.Proofs.Resource.Options
import ServerDeploy.Proofs.Resource.Reading
import ServerDeploy.Proofs.Resource.Description
import ServerDeploy.Proofs.Resource.Stumbling
import ServerDeploy.Proofs.Resource.NestedHooks
import ServerDeploy.Proofs.Deployment.DeploymentMap
import ServerDeploy.Proofs.Deployment.DeploymentServer
import ServerDeploy.Proofs.Deployment.Choice
import ServerDeploy.Proofs.Deployment.Effect
import ServerDeploy.Proofs.Deployment.Report
import ServerDeploy.Proofs.Deployment.Verdict
import ServerDeploy.Proofs.Deployment.Acceptance
import ServerDeploy.Proofs.Deployment.Progress
import ServerDeploy.Proofs.Deployment.Forcing
import ServerDeploy.Proofs.Deployment.Sequence
import ServerDeploy.Proofs.Deployment.Missing
import ServerDeploy.Proofs.Deployment.Endings
import ServerDeploy.Proofs.Goal.Calls
import ServerDeploy.Proofs.Goal.Endings
import ServerDeploy.Proofs.Goal.Gating
import ServerDeploy.Proofs.Goal.Running
import ServerDeploy.Proofs.CommandLine.Exit
