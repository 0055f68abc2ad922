import Concordance.Command.Basic
import Concordance.Disk.Tree
import Concordance.Main
import Concordance.Proofs.Assoc
import Concordance.Proofs.Json.Pointer
import Concordance.Proofs.Json.Patch
import Concordance.Proofs.Atlas.Overloads
import Concordance.Proofs.Atlas.Steps
import Concordance.Proofs.Link.Identifier
import Concordance.Proofs.Markup.Traversal
import Concordance.Proofs.Resolver.Canonical
import Concordance.Proofs.Resolver.Memory
import Concordance.Proofs.Resolver.Run
import Concordance.Proofs.Resolver.Session
import Concordance.Proofs.Atlas.Gathered
import Concordance.Proofs.Atlas.Indexes
import Concordance.Proofs.Atlas.Representation
import Concordance.Proofs.Atlas.Contents
import Concordance.Proofs.External
import Concordance.Proofs.Resolver.Success
import Concordance.Proofs.Json.Canonical
import Concordance.Proofs.Json.Decoder
import Concordance.Proofs.Rendered.Codec
import Concordance.Proofs.Rendered.Variant
import Concordance.Proofs.Resolver.Record
import Concordance.Proofs.Resolver.Pages
import Concordance.Proofs.Renderer.Parallel
import Concordance.Proofs.Renderer.Shared
import Concordance.Proofs.Project.Uses
import Concordance.Proofs.Project.Independence
import Concordance.Proofs.Text.Slug
import Concordance.Proofs.Link.RoundTrip
import Concordance.Proofs.Resolver.Inquiries
import Concordance.Proofs.Atlas.Account
import Concordance.Proofs.Atlas.Siblings
import Concordance.Proofs.Text.FilePath
import Concordance.Proofs.Atlas.InputOrder
import Concordance.Proofs.Rendered.Mentions
import Concordance.Proofs.Renderer.Mentions
import Concordance.Proofs.Renderer.SelfContained
import Concordance.Proofs.Project.Liveness
import Concordance.Proofs.Disk.Tree
import Concordance.Proofs.Publication.Files
import Concordance.Proofs.Json.Text
import Concordance.Proofs.Publication.Codec
import Concordance.Proofs.Project.Store
import Concordance.Proofs.Lock
import Concordance.Proofs.Project.Links
import Concordance.Proofs.Link.Heading
import Concordance.Proofs.Publication.Exchange
import Concordance.Proofs.Atlas.Suffixes
import Concordance.Proofs.Resolver.History
import Concordance.Proofs.Lock.Normal
import Concordance.Proofs.Publication.Confinement
import Concordance.Proofs.Atlas.Candidates
import Concordance.Proofs.Link.Brackets
import Concordance.Proofs.Renderer.Presented
import Concordance.Proofs.Renderer.Topics
import Concordance.Proofs.Resolver.Completion
import Concordance.Proofs.Json.Removal
import Concordance.Proofs.Resolver.Outwards
import Concordance.Proofs.Atlas.Languages
import Concordance.Proofs.Link.Grammar
import Concordance.Proofs.Lock.Checksum
import Concordance.Proofs.Resolver.Suggestion
import Concordance.Proofs.Atlas.Documents
import Concordance.Proofs.Lock.Changes
import Concordance.Proofs.Markup.Spans
import Concordance.Proofs.Text.Ranking
import Concordance.Proofs.Atlas.Hashes
import Concordance.Proofs.Resolver.Headings
