import TypedClient.Amendment
import TypedClient.Machine
import TypedClient.Main
import TypedClient.Yaml.Node
import TypedClient.Proofs.Schema.Form
import TypedClient.Proofs.Text.Lists
import TypedClient.Proofs.Naming.Letters
import TypedClient.Proofs.Schema.Resolution
import TypedClient.Proofs.Schema.Classification
import TypedClient.Proofs.Schema.Existence
import TypedClient.Proofs.Model.Interface
import TypedClient.Proofs.Reference.Grammar
import TypedClient.Proofs.Schema.Tree
import TypedClient.Proofs.TypeText.Reading
import TypedClient.Proofs.TypeText.Spelling
import TypedClient.Proofs.TypeText.Writing
import TypedClient.Proofs.Schema.Meaning
import TypedClient.Proofs.Reference.Mention
import TypedClient.Proofs.Schema.Imports
import TypedClient.Proofs.Model.Imports
import TypedClient.Proofs.Parameter.Imports
import TypedClient.Proofs.Discriminator.Restriction
import TypedClient.Proofs.Operation.Imports
import TypedClient.Proofs.Output.Files
import TypedClient.Proofs.Client.Imports
import TypedClient.Proofs.Document.Part
import TypedClient.Proofs.Document.Unfolding
import TypedClient.Proofs.Document.Copy
import TypedClient.Proofs.Schema.Sharing
import TypedClient.Proofs.Client.Compilation
import TypedClient.Proofs.Discriminator.Confinement
import TypedClient.Proofs.Client.Operations
import TypedClient.Proofs.Client.Order
import TypedClient.Proofs.Client.Validation
import TypedClient.Proofs.Document.Address
import TypedClient.Proofs.Discriminator.Settlement
import TypedClient.Proofs.Discriminator.Plan
import TypedClient.Proofs.Discriminator.Idempotence
import TypedClient.Proofs.Discriminator.Effect
import TypedClient.Proofs.Model.References
import TypedClient.Proofs.Operation.References
import TypedClient.Proofs.Client.References
import TypedClient.Proofs.Client.Names
import TypedClient.Proofs.Operation.Claims
import TypedClient.Proofs.Parameter.QueryRecord
import TypedClient.Proofs.Command.Refusal
import TypedClient.Proofs.Client.Literals
import TypedClient.Proofs.Parameter.Place
import TypedClient.Proofs.Route.Pieces
import TypedClient.Proofs.Operation.Signature
import TypedClient.Proofs.Operation.Bindings
import TypedClient.Proofs.Parameter.Dereference
import TypedClient.Proofs.Parameter.Merge
import TypedClient.Proofs.Operation.Chains
import TypedClient.Proofs.Document.Pointer
import TypedClient.Proofs.Schema.Pointers
import TypedClient.Proofs.Parameter.Pointers
import TypedClient.Proofs.Client.Pointers
import TypedClient.Proofs.Payload.Union
import TypedClient.Proofs.Operation.Streams
import TypedClient.Proofs.Discriminator.Survival
import TypedClient.Proofs.TypeText.Pieces
import TypedClient.Proofs.Model.Enumeration
import TypedClient.Proofs.Naming.Words
import TypedClient.Proofs.Operation.Names
import TypedClient.Proofs.Model.Keys
import TypedClient.Proofs.Text.Comments
import TypedClient.Proofs.Operation.Summary
import TypedClient.Proofs.Client.Summaries
import TypedClient.Proofs.Naming.Recasing
import TypedClient.Proofs.Operation.MethodName
import TypedClient.Proofs.Schema.Component
import TypedClient.Proofs.Client.Lint
import TypedClient.Proofs.Path.Resolution
import TypedClient.Proofs.Settings.Loading
import TypedClient.Proofs.Report.Paths
