import PubSub.NameMap
import PubSub.Text.Utf8
import PubSub.Text.Printable
import PubSub.Text.Quoted
import PubSub.Text.Base64
import PubSub.Json.Failure
import PubSub.Json.Scan
import PubSub.Json.Skip
import PubSub.Number.Binary64
import PubSub.Number.Shortest
import PubSub.Message
import PubSub.Json.Number
import PubSub.SystemError
import PubSub.Record.Flaw
import PubSub.Record.Decode
import PubSub.Record.Encode
import PubSub.Record.Stream
import PubSub.Url.Basic
import PubSub.Url.Percent
import PubSub.Url.Ipv4
import PubSub.Url.Ipv6
import PubSub.Url.Host
import PubSub.Url.Path
import PubSub.Url.Parse
import PubSub.Endpoint
import PubSub.Flow
import PubSub.TopicCache
import PubSub.TopicCache.Numbered
import PubSub.Event
import PubSub.Subscription.Options
import PubSub.Handler
import PubSub.Dispatcher
import PubSub.Dispatcher.Shared
import PubSub.Dispatcher.Workers
import PubSub.Files.Path
import PubSub.Files.Basic
import PubSub.Files.Folders
import PubSub.Publisher.Batch
import PubSub.Publisher.FileLog
import PubSub.Publisher.Basic
import PubSub.World
import PubSub.Subscription.Action
import PubSub.Subscription.Feed
import PubSub.Subscription.Basic
import PubSub.Subscription.Memory
import PubSub.Subscription.Replay
import PubSub.Subscription.Script
import PubSub.Subscription.Subscribe
import PubSub.Subscription.HangUp
import PubSub.Bus
import PubSub.Bus.Settled
import PubSub.Registry
import PubSub.Backend
import PubSub.Session.Command
import PubSub.Session
import PubSub.Contract.Basic
import PubSub.Contract.Publishing
import PubSub.Contract.Subscribing
import PubSub.Contract.Builtin
import PubSub.Contract.Fault
import PubSub.Contract.Suite
import PubSub.CommandLine.Option
import PubSub.CommandLine.Help
import PubSub.CommandLine.Arguments
import PubSub.CommandLine.Run
import PubSub.Main
import PubSub.Proofs.NameMap
import PubSub.Proofs.Text.Utf8
import PubSub.Proofs.Text.Base64
import PubSub.Proofs.Text.Spans
import PubSub.Proofs.Record.Strings
import PubSub.Proofs.Record.Members
import PubSub.Proofs.Record.Written
import PubSub.Proofs.Record.Log
import PubSub.Proofs.Record.RoundTrip
import PubSub.Proofs.Dispatcher.Shared
import PubSub.Proofs.Dispatcher.Serial
import PubSub.Proofs.Dispatcher.Settle
import PubSub.Proofs.World
import PubSub.Proofs.Rest
import PubSub.Proofs.Bus
import PubSub.Proofs.Subscription.Feed
import PubSub.Proofs.Subscription.Replay
import PubSub.Proofs.Subscription.Files
import PubSub.Proofs.Subscription.Steps
import PubSub.Proofs.Subscription.Life
import PubSub.Proofs.Subscription.Tracking
import PubSub.Proofs.Files.Path
import PubSub.Proofs.Files.Tree
import PubSub.Proofs.Files.Root
import PubSub.Proofs.Publisher.Appending
import PubSub.Proofs.Publisher.FileLog
import PubSub.Proofs.Publisher.OneByOne
import PubSub.Proofs.Session.History
import PubSub.Proofs.Session.AfterCut
import PubSub.Proofs.Bus.Chronicle
import PubSub.Proofs.Subscription.Lifecycle
import PubSub.Proofs.Subscription.Abort
import PubSub.Proofs.Subscription.CleanStop
import PubSub.Proofs.Subscription.Stopping
import PubSub.Proofs.Subscription.Memory
import PubSub.Proofs.Subscription.FileStopping
import PubSub.Proofs.Subscription.Agreement
import PubSub.Proofs.Json.Grammar
import PubSub.Proofs.Json.Reading
import PubSub.Proofs.Record.Grammar
import PubSub.Proofs.Files.OneName
import PubSub.Proofs.Publisher.Topics
import PubSub.Proofs.Subscription.Queue
import PubSub.Proofs.Bus.Handing
import PubSub.Proofs.Bus.OneThread
import PubSub.Proofs.Bus.Discards
import PubSub.Proofs.Bus.Scheduled
import PubSub.Proofs.Files.Held
import PubSub.Proofs.Publisher.Refusals
import PubSub.Proofs.Bus.Influence
import PubSub.Proofs.Subscription.Revoked
import PubSub.Proofs.Publisher.Shared
import PubSub.Proofs.Publisher.SharedReturns
import PubSub.Proofs.Publisher.SharedRecords
import PubSub.Proofs.Publisher.SharedRest
import PubSub.Proofs.Publisher.SharedAlone
import PubSub.Proofs.Publisher.Closed
import PubSub.Proofs.Publisher.Batch
import PubSub.Proofs.Error
import PubSub.Proofs.Flow
import PubSub.Proofs.Registry
import PubSub.Proofs.TopicCache
import PubSub.Proofs.Bus.Apart
import PubSub.Proofs.Bus.Settled
import PubSub.Proofs.Subscription.Settled
import PubSub.Proofs.Subscription.HangUp
import PubSub.Proofs.Subscription.Contents
import PubSub.Proofs.CommandLine.Arguments
import PubSub.Proofs.CommandLine.Publishing
import PubSub.Proofs.CommandLine.Tail
import PubSub.Proofs.CommandLine
import PubSub.Proofs.Url.Clean
import PubSub.Proofs.Url.Percent
import PubSub.Proofs.Url.Path
import PubSub.Proofs.Url.File
import PubSub.Proofs.Url.Authority
import PubSub.Proofs.Endpoint.HostList
import PubSub.Proofs.Endpoint.Unlisted
import PubSub.Proofs.Endpoint.Entries
import PubSub.Proofs.Endpoint.LocalPath
import PubSub.Proofs.Url.Named
import PubSub.Proofs.Registry.Schemes
import PubSub.Proofs.Backend
import PubSub.Proofs.Url.Pairs
import PubSub.Proofs.Url.Slash
import PubSub.Proofs.Endpoint.Query
import PubSub.Proofs.Json.Growing
import PubSub.Proofs.Record.Growing
import PubSub.Proofs.Subscription.Growing
