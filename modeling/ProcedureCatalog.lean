import ProcedureCatalog.CommandLine.Machine
import ProcedureCatalog.Main
import ProcedureCatalog.Proofs.Catalog.Counts
import ProcedureCatalog.Proofs.Catalog.ExportSync
import ProcedureCatalog.Proofs.Catalog.HandWritten
import ProcedureCatalog.Proofs.Catalog.Independence
import ProcedureCatalog.Proofs.Catalog.Isolation
import ProcedureCatalog.Proofs.Catalog.NameFill
import ProcedureCatalog.Proofs.Catalog.Search
import ProcedureCatalog.Proofs.Catalog.Shortening
import ProcedureCatalog.Proofs.Catalog.ShorteningByProgram
import ProcedureCatalog.Proofs.Catalog.SingleLine
import ProcedureCatalog.Proofs.Catalog.SourceFill
import ProcedureCatalog.Proofs.Catalog.StatusAndClear
import ProcedureCatalog.Proofs.Catalog.UnchangedSource
import ProcedureCatalog.Proofs.CommandLine.FillAllPrograms
import ProcedureCatalog.Proofs.Description.KeptText
import ProcedureCatalog.Proofs.Extraction.DeclarationForms
import ProcedureCatalog.Proofs.Extraction.Documented
import ProcedureCatalog.Proofs.Extraction.FirstBlocks
import ProcedureCatalog.Proofs.Extraction.FirstLabels
import ProcedureCatalog.Proofs.Extraction.FollowedLines
import ProcedureCatalog.Proofs.Extraction.HarvestedBlock
import ProcedureCatalog.Proofs.Extraction.Headers
import ProcedureCatalog.Proofs.Extraction.LabelMatchers
import ProcedureCatalog.Proofs.Extraction.OneSpelling
import ProcedureCatalog.Proofs.Extraction.Precedence
import ProcedureCatalog.Proofs.Extraction.Spans
import ProcedureCatalog.Proofs.Extraction.Spelling
import ProcedureCatalog.Proofs.Extraction.WhatIsSeen
import ProcedureCatalog.Proofs.Host.NamesInCommands
import ProcedureCatalog.Proofs.Host.SentCommands
import ProcedureCatalog.Proofs.Host.StatementQuoting
import ProcedureCatalog.Proofs.Host.StatementValues
import ProcedureCatalog.Proofs.Host.StreamFile
import ProcedureCatalog.Proofs.Inference.ModuleNames
import ProcedureCatalog.Proofs.Listing.Layout
import ProcedureCatalog.Proofs.Listing.Symbols
import ProcedureCatalog.Proofs.Settings.SavedSettings
import ProcedureCatalog.Proofs.Shell.Reading
import ProcedureCatalog.Settings.Json
import ProcedureCatalog.Shell.Run
