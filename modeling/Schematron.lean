import Schematron.Collector
import Schematron.Command.Run
import Schematron.Engine.Schedule
import Schematron.Main
import Schematron.Pipeline
import Schematron.Proofs.Engine.Filter
import Schematron.Service
import Schematron.Settings.File
import Schematron.Svrl
import Schematron.Proofs.Engine.Obligations
import Schematron.Proofs.Engine.Settling
import Schematron.Proofs.Engine.Serving
import Schematron.Proofs.Engine.Queueing
import Schematron.Proofs.Engine.Waiting
import Schematron.Proofs.Engine.Provenance
import Schematron.Proofs.Engine.Mirroring
import Schematron.Proofs.Engine.Completion
import Schematron.Proofs.Engine.Containment
import Schematron.Proofs.Engine.Independence
import Schematron.Proofs.Engine.FailFast
import Schematron.Proofs.Engine.Callbacks
import Schematron.Proofs.Engine.Lifecycle
import Schematron.Proofs.Engine.Refusal
import Schematron.Proofs.Command.Validation
import Schematron.Proofs.Settings.Acceptance
import Schematron.Proofs.Settings.Normalization
import Schematron.Proofs.Engine.Skipping
import Schematron.Proofs.Compilation.Stages
import Schematron.Proofs.Svrl.Records
import Schematron.Proofs.Location.Resolution
import Schematron.Proofs.Settings.Search
import Schematron.Proofs.Engine.Likeness
import Schematron.Proofs.Engine.Sourcing
import Schematron.Proofs.Command.Sources
import Schematron.Proofs.Xml.Headings
import Schematron.Proofs.Engine.Encodings
import Schematron.Proofs.Text.Sanitizing
import Schematron.Proofs.Engine.Courses
import Schematron.Proofs.Engine.Rejection
import Schematron.Proofs.Console.Printing
import Schematron.Proofs.Engine.Messages
import Schematron.Proofs.Command.Compilation
import Schematron.Proofs.Command.Listing
import Schematron.Proofs.Svrl.Classification
import Schematron.Proofs.Compilation.Summary
