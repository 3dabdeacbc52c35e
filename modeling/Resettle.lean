import Resettle.Action
import Resettle.Batch
import Resettle.Cli.Arguments
import Resettle.Cli.Run
import Resettle.Configuration
import Resettle.Configuration.Search
import Resettle.ConnectionBlock
import Resettle.ConnectionDriver
import Resettle.Conversion
import Resettle.Detection
import Resettle.Dictionary
import Resettle.Disk
import Resettle.Distinct
import Resettle.EnvFile
import Resettle.Error
import Resettle.Generation
import Resettle.Inventory.Analysis
import Resettle.Inventory.Classes
import Resettle.Inventory.Collector
import Resettle.Inventory.Config
import Resettle.Inventory.Database
import Resettle.Inventory.Facts
import Resettle.Inventory.Json
import Resettle.Inventory.Report
import Resettle.Inventory.Routes
import Resettle.Inventory.Shapes
import Resettle.Inventory.Summary
import Resettle.Json
import Resettle.Json.Numeral
import Resettle.Json.Reader
import Resettle.Json.Record
import Resettle.Json.Token
import Resettle.Json.Writer
import Resettle.Listing
import Resettle.Main
import Resettle.Migrator
import Resettle.Number.Binary64
import Resettle.Number.Decimal
import Resettle.Number.Shortest
import Resettle.Path
import Resettle.PathMap
import Resettle.Php.Grammar
import Resettle.Php.Grammar.Declaration
import Resettle.Php.Grammar.Expression
import Resettle.Php.Grammar.Statement
import Resettle.Php.Lexer
import Resettle.Php.Literal
import Resettle.Php.Node
import Resettle.Php.Parser
import Resettle.Php.Summary
import Resettle.Php.Token
import Resettle.Program
import Resettle.Project
import Resettle.Proofs.Cli.UnknownSources
import Resettle.Proofs.Configuration.NearestFile
import Resettle.Proofs.ConnectionBlock.Again
import Resettle.Proofs.ConnectionBlock.Entries
import Resettle.Proofs.ConnectionBlock.EntryLines
import Resettle.Proofs.ConnectionBlock.ItemPlaces
import Resettle.Proofs.ConnectionBlock.Layout
import Resettle.Proofs.ConnectionBlock.Leads
import Resettle.Proofs.ConnectionBlock.Meaning
import Resettle.Proofs.ConnectionBlock.OwnBlock
import Resettle.Proofs.ConnectionBlock.OwnItems
import Resettle.Proofs.ConnectionBlock.OwnLines
import Resettle.Proofs.ConnectionBlock.Places
import Resettle.Proofs.ConnectionBlock.Runs
import Resettle.Proofs.Conversion.Again
import Resettle.Proofs.Conversion.NoTrace
import Resettle.Proofs.Conversion.Running
import Resettle.Proofs.Dictionary
import Resettle.Proofs.Disk.Directories
import Resettle.Proofs.Disk.FreePaths
import Resettle.Proofs.Disk.FreshDirectories
import Resettle.Proofs.Disk.Listing
import Resettle.Proofs.Disk.Names
import Resettle.Proofs.Disk.NewDirectories
import Resettle.Proofs.Disk.Writing
import Resettle.Proofs.Distinct
import Resettle.Proofs.EnvFile.Assignments
import Resettle.Proofs.EnvFile.Frame
import Resettle.Proofs.EnvFile.NewLines
import Resettle.Proofs.EnvFile.Setting
import Resettle.Proofs.EnvFile.Spelling
import Resettle.Proofs.Inventory.Accounting
import Resettle.Proofs.Inventory.Batches
import Resettle.Proofs.Inventory.ClassNames
import Resettle.Proofs.Inventory.ConfigSettings
import Resettle.Proofs.Inventory.DatabaseAssignments
import Resettle.Proofs.Inventory.DatabaseForms
import Resettle.Proofs.Inventory.Dependencies
import Resettle.Proofs.Inventory.Exactness
import Resettle.Proofs.Inventory.FileByFile
import Resettle.Proofs.Inventory.LastLoads
import Resettle.Proofs.Inventory.Loads
import Resettle.Proofs.Inventory.MethodFacts
import Resettle.Proofs.Inventory.Methods
import Resettle.Proofs.Inventory.RoundTrip
import Resettle.Proofs.Inventory.RoutesOfMethods
import Resettle.Proofs.Inventory.Wrappers
import Resettle.Proofs.Json.Records
import Resettle.Proofs.Json.Spelling
import Resettle.Proofs.Json.Strings
import Resettle.Proofs.LastGiven
import Resettle.Proofs.Number.Numerals
import Resettle.Proofs.Path.Parents
import Resettle.Proofs.Path.Resolution
import Resettle.Proofs.Path.Segments
import Resettle.Proofs.PathMap
import Resettle.Proofs.Php.Brackets
import Resettle.Proofs.Php.Escapes
import Resettle.Proofs.Php.Flattening
import Resettle.Proofs.Php.Frames
import Resettle.Proofs.Php.Integers
import Resettle.Proofs.Php.Items
import Resettle.Proofs.Php.Literals
import Resettle.Proofs.Php.Marks
import Resettle.Proofs.Php.ReadBack
import Resettle.Proofs.Php.Shapes
import Resettle.Proofs.Php.Summaries
import Resettle.Proofs.Resettlement.Choices
import Resettle.Proofs.Resettlement.Outcomes
import Resettle.Proofs.Resettlement.Stages
import Resettle.Proofs.Scalar.Literal
import Resettle.Proofs.Scalar.Lookup
import Resettle.Proofs.Session.Confinement
import Resettle.Proofs.Session.StartedOnce
import Resettle.Proofs.Session.Starting
import Resettle.Proofs.Session.Traffic
import Resettle.Proofs.Text.Hits
import Resettle.Proofs.Text.Pieces
import Resettle.Proofs.Text.Trimming
import Resettle.Proofs.Updates.Ports
import Resettle.Proofs.Updates.Spellings
import Resettle.Resettlement
import Resettle.ScaffoldOptions
import Resettle.Scaffolding
import Resettle.Scalar
import Resettle.Scalar.Json
import Resettle.Session.Id
import Resettle.Session.Request
import Resettle.Session.Store
import Resettle.Settings
import Resettle.Shell.Run
import Resettle.Shell.Script
import Resettle.Shell.Tools
import Resettle.Text.Base64
import Resettle.Text.Blank
import Resettle.Text.Hex
import Resettle.Text.Lines
import Resettle.Text.LowerCase
import Resettle.Text.LowerCase.Table
import Resettle.Text.Search
import Resettle.Text.Style
import Resettle.Toml
import Resettle.Toml.Reader
import Resettle.Toml.Words
import Resettle.Updates
