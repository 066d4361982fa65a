import Webthings.Transition.Machine
import Webthings.Transition.DoWhile
import Webthings.Transition.Twin
import Webthings.Memory.TailQueue
import Webthings.Evcoap.Enums
import Webthings.Evcoap.Options.Model
import Webthings.Evcoap.Options.Bundle
import Webthings.Evcoap.Options.Decode
import Webthings.Evcoap.Options.Records
import Webthings.Evcoap.Options.RoundTrip
import Webthings.Evcoap.Options.Enclosed
import Webthings.Evcoap.Dups
import Webthings.Evcoap.Pdu
import Webthings.Evcoap.Options.Get
import Webthings.Evcoap.Options.UintCodec
import Webthings.Evcoap.Options.Foreign
import Webthings.Evcoap.OptionCount
import Webthings.Evcoap.Client
import Webthings.Evcoap.ClientRuns
import Webthings.Evcoap.ClientResponses
import Webthings.Evcoap.ClientPairing
import Webthings.Evcoap.ClientAcks
import Webthings.Evcoap.ClientFrame
import Webthings.Evcoap.ClientRejects
import Webthings.Evcoap.Notifications
import Webthings.Evcoap.Observe
import Webthings.Evcoap.Server
import Webthings.Evcoap.Base
import Webthings.Evcoap.ServerInvariant
import Webthings.Evcoap.BaseSteps
import Webthings.Evcoap.ServerTimers
import Webthings.Evcoap.Reencode
import Webthings.Evcoap.ServerLife
import Webthings.Evcoap.ServerMatching
import Webthings.Evcoap.ServerRetransmit
import Webthings.Evcoap.Registrations
import Webthings.Evcoap.Cancellation
import Webthings.Evcoap.Duplicates
import Webthings.Evcoap.NumberSpaces
import Webthings.Evcoap.FirstReplies
import Webthings.Evcoap.Replay
import Webthings.Evcoap.Answers
import Webthings.Evcoap.RegistryView
import Webthings.Evcoap.Options.Fragments
import Webthings.Evcoap.ComposeUri
import Webthings.Evcoap.RequestedUrl
import Webthings.Evcoap.ProxyUri
import Webthings.Evcoap.ClientUri
import Webthings.Evcoap.ClientDestination
import Webthings.Evcoap.TypedGetters
import Webthings.Evcoap.BlockSizes
import Webthings.Evcoap.DeferredFailures
import Webthings.Evcoap.EncodingSpace
import Webthings.Evcoap.ClientLife
import Webthings.Evcoap.LifeFrame
import Webthings.Evcoap.ClientTimers
import Webthings.Evcoap.ClientList
import Webthings.Evcoap.Options.Frame
import Webthings.Evcoap.Options.Block
import Webthings.Evcoap.ClientRequest
import Webthings.Evcoap.Resource
import Webthings.Apps.CoapServer
import Webthings.Apps.CoapClient
import Webthings.Apps.Upload
import Webthings.Apps.Transfers
import Webthings.Apps.HttpProxy
import Webthings.Apps.ProxyContext
import Webthings.Apps.ProxyIsolation
import Webthings.Evcoap.TokenCapacity
import Webthings.Evcoap.ImmediateReplies
import Webthings.Evcoap.PullupAll
import Webthings.Evcoap.Retransmissions
import Webthings.Evcoap.ClientTrace
import Webthings.Evcoap.Mirrors
import Webthings.Apps.ReadYourWrites
import Webthings.Apps.PublishProxy
import Webthings.Kache.Cache
import Webthings.Kache.Shelf
import Webthings.Kache.Retrieval
import Webthings.Kache.Expiry
import Webthings.Evcoap.Recycling
import Webthings.Evcoap.RecycledRuns
import Webthings.Evcoap.ObservationTimers
import Webthings.Evcoap.ObserveCounters
import Webthings.Memory.Leases
import Webthings.Evcoap.ClientSockets
import Webthings.Evcoap.Lookups
import Webthings.Evcoap.PreferredBlock
import Webthings.Apps.Unpublish
import Webthings.Evcoap.Options.Additions
import Webthings.Apps.Posts
import Webthings.Apps.BlockSlices
import Webthings.Apps.HttpReplies
import Webthings.Apps.HttpBodies
import Webthings.Evcoap.WellKnownCore
import Webthings.Evcoap.Options.Carried
import Webthings.Apps.OptionMapping
import Webthings.Apps.ForwardedOptions
import Webthings.Apps.ReturnedOptions
import Webthings.Sorting.Keyed
import Webthings.Evcoap.Options.Pushes
import Webthings.Kache.KeyVals
import Webthings.Pubapi.Services
import Webthings.Sorting.Rising
import Webthings.Network.ObservationPhases
import Webthings.Network.Observing
import Webthings.Evcoap.Wire
import Webthings.Evcoap.Addressees
import Webthings.Evcoap.ClientPosts
import Webthings.Evcoap.PromptReplies
import Webthings.Network.Serving
import Webthings.Network.Answering
import Webthings.Network.Asking
import Webthings.Network.Exchange
import Webthings.Network.Completing
import Webthings.Evcoap.DeferredReplies
import Webthings.Network.Deferring
import Webthings.Network.Dialogue
import Webthings.Network.Concluding
import Webthings.Evcoap.Conversations
import Webthings.Apps.Ledger
