import ConfinedRelay.Fault
import ConfinedRelay.Failure
import ConfinedRelay.Event
import ConfinedRelay.Turn
import ConfinedRelay.Script
import ConfinedRelay.Source
import ConfinedRelay.Device
import ConfinedRelay.Handle
import ConfinedRelay.Output
import ConfinedRelay.LineBuffer
import ConfinedRelay.Transfer
import ConfinedRelay.Opening
import ConfinedRelay.Text.Pieces
import ConfinedRelay.Text.Ranges
import ConfinedRelay.Text.Alphanumeric
import ConfinedRelay.Text.Invisible
import ConfinedRelay.Text.Quoted
import ConfinedRelay.Text.White
import ConfinedRelay.Text.Bytes
import ConfinedRelay.Path
import ConfinedRelay.Tree
import ConfinedRelay.Walk
import ConfinedRelay.Host
import ConfinedRelay.OpenFile
import ConfinedRelay.Session
import ConfinedRelay.Binary64
import ConfinedRelay.Decimal
import ConfinedRelay.Json.Literal
import ConfinedRelay.Json.Numeral
import ConfinedRelay.Json.Token
import ConfinedRelay.Json.Skip
import ConfinedRelay.Settings
import ConfinedRelay.Settings.Document
import ConfinedRelay.Filter
import ConfinedRelay.LogLine
import ConfinedRelay.Log
import ConfinedRelay.LoggedSession
import ConfinedRelay.Program
import ConfinedRelay.Main
import ConfinedRelay.Proofs.Supply
import ConfinedRelay.Proofs.ScriptedSupply
import ConfinedRelay.Proofs.WordCounts
import ConfinedRelay.Proofs.Reads
import ConfinedRelay.Proofs.Decisions
import ConfinedRelay.Proofs.Appends
import ConfinedRelay.Proofs.Reception
import ConfinedRelay.Proofs.TransferOutcome
import ConfinedRelay.Proofs.BufferedTransfer
import ConfinedRelay.Proofs.GrowingFile
import ConfinedRelay.Proofs.SessionReads
import ConfinedRelay.Proofs.WalkSteps
import ConfinedRelay.Proofs.WalkBeneath
import ConfinedRelay.Proofs.AlikeSources
import ConfinedRelay.Proofs.Confinement
import ConfinedRelay.Proofs.AcceptingOutput
import ConfinedRelay.Proofs.TakenUnits
import ConfinedRelay.Proofs.LogOwnership
import ConfinedRelay.Proofs.ProgramExit
import ConfinedRelay.Proofs.DecidingRule
import ConfinedRelay.Proofs.RuleGrammar
import ConfinedRelay.Proofs.JsonLiterals
import ConfinedRelay.Proofs.JsonValues
import ConfinedRelay.Proofs.LogEntries
import ConfinedRelay.Proofs.LogText
import ConfinedRelay.Proofs.SettingsDocuments
import ConfinedRelay.Proofs.Consumption
import ConfinedRelay.Proofs.LockStep
import ConfinedRelay.Proofs.ExactConsumption
import ConfinedRelay.Proofs.EventOfResult
import ConfinedRelay.Proofs.LineBuffering
import ConfinedRelay.Proofs.PathParts
import ConfinedRelay.Proofs.Interruptions
import ConfinedRelay.Proofs.TransparentOpening
import ConfinedRelay.Proofs.DocumentForms
import ConfinedRelay.Proofs.FirstProblem
import ConfinedRelay.Proofs.JsonLines
import ConfinedRelay.Proofs.RuleSets
import ConfinedRelay.Proofs.FormatNames
import ConfinedRelay.Proofs.CallByCall
