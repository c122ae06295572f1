import Trpi.Session.Jsonl.FailedAppends
import Trpi.Session.Jsonl.LegacyUpgrade
import Trpi.Session.Jsonl.ForkAgreement
import Trpi.Chord.Delta.ApplyImmutable
import Trpi.Chord.Services.StateCodec
import Trpi.Protocol.FrameAcceptance
import Trpi.Chord.Services.KeyedBindingRuns
import Trpi.Tools.EditPreservation
import Trpi.Tools.ReadTool
import Trpi.Tui.LegacyKeys
import Trpi.Ai.FrameReplay
import Trpi.Harness.CaptureTruncation
import Trpi.Session.MutationProgress
import Trpi.Harness.OutputDelivery
import Trpi.CodingAgent.SessionFork
import Trpi.CodingAgent.PromptTemplates
import Trpi.CodingAgent.ControlLines
import Trpi.CodingAgent.SessionHeader
import Trpi.CodingAgent.SessionTree
import Trpi.Sqlite.BranchRuns
import Trpi.Remote.Orphans
import Trpi.Ai.ReplayPairing
import Trpi.Ai.EventStream
import Trpi.Ai.ToolArgumentsSpec
import Trpi.CodingAgent.CompactionContext
import Trpi.CodingAgent.SettingsRuns
import Trpi.CodingAgent.SettingsStorage
import Trpi.CodingAgent.MessageQueueRuns
import Trpi.CodingAgent.DeferredMessages
import Trpi.CodingAgent.BranchSummarization
import Trpi.Agent.LoopRuns
import Trpi.Ai.ResponsesRuns
import Trpi.Ai.CodexContinuations
import Trpi.Chord.Facets.ActivationOrder
import Trpi.Harness.CompactionBudget
import Trpi.Session.ForkClosure
import Trpi.Protocol.Cbor.Reencoding
import Trpi.Harness.LaneExclusivity
import Trpi.Harness.ResnapshotFailures
import Trpi.Chord.Services.InstanceConsistency
import Trpi.Harness.Runtime.OverflowRuns
import Trpi.Harness.Runtime.Progress
import Trpi.Harness.CompactionSummary
import Trpi.Tui.StackSizes
import Trpi.Tui.StdinLossless
import Trpi.Tui.WordWrap
