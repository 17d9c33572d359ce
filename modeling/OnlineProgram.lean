import OnlineProgram.TransitionRuns
import OnlineProgram.EventHistory
import OnlineProgram.StageEffects
import OnlineProgram.RequestSlot
import OnlineProgram.ModeSessions
import OnlineProgram.SessionCalls
import OnlineProgram.AuthorizedSends
import OnlineProgram.ServerAnswers
import OnlineProgram.ReportedResults
import OnlineProgram.UidCycles
import OnlineProgram.ConfirmedReports
import OnlineProgram.BoardRequests
import OnlineProgram.CMemory
import OnlineProgram.SerialLink
import OnlineProgram.UUencode
import OnlineProgram.IspCommands
import OnlineProgram.ConformingTarget
import OnlineProgram.CommandSpecs
import OnlineProgram.ReadBack
import OnlineProgram.FlashImage
import OnlineProgram.ProgramBinFile
import OnlineProgram.ReferenceTarget
import OnlineProgram.ReceivedChunks
import OnlineProgram.ReceivedBursts
import OnlineProgram.ResultCodes
import OnlineProgram.SentText
import OnlineProgram.ProgramUid
import OnlineProgram.UidOverImage
import OnlineProgram.BufferWrites
import OnlineProgram.DecodedLines
import OnlineProgram.ReadResponses
import OnlineProgram.ReadOverruns
import OnlineProgram.ByteSums
import OnlineProgram.DeterminedReads
import OnlineProgram.ReadContents
import OnlineProgram.ReceiveBuffer
import OnlineProgram.VerifiedSums
import OnlineProgram.ScriptedTarget
import OnlineProgram.BootSignature
import OnlineProgram.LineCodec
import OnlineProgram.MemoryGuards
import OnlineProgram.PartId
import OnlineProgram.LeftOvers
import OnlineProgram.ResendPeriod
import OnlineProgram.FirstConnections
import OnlineProgram.NetworkMemory
import OnlineProgram.JsonText
import OnlineProgram.EchoedUid
import OnlineProgram.JsonTree
import OnlineProgram.ResourceRuns
import OnlineProgram.SystemCalls
import OnlineProgram.IspConfig
import OnlineProgram.DetectedFile
import OnlineProgram.CountedProgram
import OnlineProgram.ResourceBalance
import OnlineProgram.FallibleScans
import OnlineProgram.CJsonParser
import OnlineProgram.ParserSafety
import OnlineProgram.ScanningRuns
import OnlineProgram.CJsonHeap
import OnlineProgram.ParsedTrees
import OnlineProgram.CJsonStrings
import OnlineProgram.JsonMeaning
import OnlineProgram.CJsonNumbers
import OnlineProgram.CJsonConformance
import OnlineProgram.ServerMessages
import OnlineProgram.CutTexts
import OnlineProgram.CutMessages
import OnlineProgram.BoardSync
import OnlineProgram.FaultingRuns
import OnlineProgram.BootedTarget
import OnlineProgram.Station
import OnlineProgram.StationRuns
import OnlineProgram.StationRecovery
import OnlineProgram.StationResults
