import TwinForge.Codesys.GuardTransparency
import TwinForge.Codesys.GuardFailure
import TwinForge.IecSt.InputProtection
import TwinForge.OpenPLC.LadderDocument
import TwinForge.Plcopen.RllPreservation
import TwinForge.StructuredText.LexerLossless
import TwinForge.Plcopen.ExportedRungs
import TwinForge.StructuredText.ExpressionParsing
import TwinForge.StructuredText.InfixParsing
import TwinForge.StructuredText.Writing
import TwinForge.Runtime.DirectionExclusivity
import TwinForge.Plcopen.BasicCounter
import TwinForge.OpenPLC.RetentiveTimer
import TwinForge.Plcopen.DrumSequencer
import TwinForge.Runtime.ImageRoundTrip
import TwinForge.OpenPLC.CounterRefinement
import TwinForge.OpenPLC.TimerRefinement
import TwinForge.Plcopen.NetworkRungs
import TwinForge.Runtime.RunLatches
import TwinForge.Runtime.SysModule
import TwinForge.Discovery.LifecycleSessions
import TwinForge.Assembly.LedgerPromotions
import TwinForge.Discovery.StateStoreSavers
import TwinForge.Discovery.TopologyEvidence
import TwinForge.Discovery.CipRoutes
import TwinForge.ControlExpert.SfcEvidence
import TwinForge.ControlExpert.LadderPlaces
import TwinForge.L5X.CorpusOrder
import TwinForge.Discovery.DriftLaws
import TwinForge.Discovery.LogixSymbolScopes
import TwinForge.Discovery.LogixSymbolPages
import TwinForge.Discovery.PermittedCaptureRuns
import TwinForge.Discovery.ReconciliationLaws
import TwinForge.Codesys.ExportCompleteness
import TwinForge.Analysis.OrderedBlocks
import TwinForge.ModelJson.ComparisonPatch
import TwinForge.ModelJson.GraphContract
import TwinForge.Plcopen.OneShotContract
import TwinForge.Discovery.PhysicalContainment
import TwinForge.IR.EnableBehaviour
import TwinForge.IR.AnswerKeys
import TwinForge.StructuredText.TokenCoverage
import TwinForge.StructuredText.ParserProgress
import TwinForge.Assembly.EvidenceRetention
import TwinForge.Plcopen.ProgramNames
import TwinForge.Plx50.ModbusAccounting
import TwinForge.Discovery.SnmprecLines
import TwinForge.Discovery.SnmpConversion
import TwinForge.Discovery.SnmprecLinks
import TwinForge.Codesys.VisualizationDiff
import TwinForge.Discovery.DeviceAddresses
import TwinForge.Eds.PathAssessment
import TwinForge.Eds.StatementReading
import TwinForge.L5X.CallBinding
import TwinForge.Analysis.CallLines
import TwinForge.Plx50.LogixAccounting
import TwinForge.Scadapack.StationProperties
