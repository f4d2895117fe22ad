import RlStatsApi.SortedAssoc
import RlStatsApi.DecimalText
import RlStatsApi.JsonValue
import RlStatsApi.SerdeCodec
import RlStatsApi.EventData
import RlStatsApi.Error
import RlStatsApi.EventParsing
import RlStatsApi.CodecLayout
import RlStatsApi.EventRoundTrip
import RlStatsApi.EventLayout
import RlStatsApi.StreamClient
import RlStatsApi.StreamRuns
import RlStatsApi.StreamProgress
import RlStatsApi.StatsCommands
import RlStatsApi.KeyedItems
import RlStatsApi.IniText
import RlStatsApi.ClientConfig
import RlStatsApi.ConfigPolicy
import RlStatsApi.EventTexts
import RlStatsApi.EventFilters
import RlStatsApi.EventValues
import RlStatsApi.SosTranslation
import RlStatsApi.RelayLoop
import RlStatsApi.TeamMentions
import RlStatsApi.PlayerIds
import RlStatsApi.LabelledRuns
import RlStatsApi.OverlayDelivery
import RlStatsApi.BroadcastGui
import RlStatsApi.SoleBroadcaster
import RlStatsApi.ClientCounts
import RlStatsApi.LineCuts
import RlStatsApi.RepeatedCalls
import RlStatsApi.CountedOutput
import RlStatsApi.FrameEntries
import RlStatsApi.KeyLaws
import RlStatsApi.PlayerQuantities
import RlStatsApi.RelayTarget
import RlStatsApi.RlEvents
import RlStatsApi.KindTokens
import RlStatsApi.MaxEvents
import RlStatsApi.PlayerTracking
import RlStatsApi.CheckedState
import RlStatsApi.MockBroadcast
import RlStatsApi.MockDraws
import RlStatsApi.MockRoster
import RlStatsApi.BoundedBroadcast
import RlStatsApi.OverlayClients
import RlStatsApi.BroadcastServer
import RlStatsApi.ServerShutdown
import RlStatsApi.MockServer
import RlStatsApi.FilteredClient
import RlStatsApi.FramedDelivery
import RlStatsApi.JsonShape
import RlStatsApi.SosSchema
import RlStatsApi.MockSchema
import RlStatsApi.WrittenValues
import RlStatsApi.EventPipe
import RlStatsApi.ClientTraffic
import RlStatsApi.GuiWorker
import RlStatsApi.BroadcastArguments
import RlStatsApi.MockArguments
import RlStatsApi.ConnectRetry
import RlStatsApi.PythonFunctions
import RlStatsApi.KeySort
import RlStatsApi.Throttle
import RlStatsApi.PlayerBoard
import RlStatsApi.RlCommand
import RlStatsApi.EventsArguments
import RlStatsApi.TextReader
import RlStatsApi.EnvelopeReading
