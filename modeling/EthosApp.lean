import EthosApp.Lib.Digits
import EthosApp.Lib.Gregorian
import EthosApp.Lib.Runs
import EthosApp.Lib.Reachability
import EthosApp.Lib.KeyedLog
import EthosApp.Lib.Unwinding
import EthosApp.Lib.DocumentStore
import EthosApp.Lib.Futures
import EthosApp.Lib.HandlerPool
import EthosApp.Lib.AsyncBuilder
import EthosApp.Dart.DateTime
import EthosApp.Dart.DateFormat
import EthosApp.Dart.DayPart
import EthosApp.Dart.DateText
import EthosApp.Dart.DayTexts
import EthosApp.Dart.FieldDate
import EthosApp.Dart.TypedDate
import EthosApp.Dart.StoredDay
import EthosApp.Dart.Zone
import EthosApp.Dart.LocalZone
import EthosApp.Dart.UtcText
import EthosApp.DataTypes.Tipo
import EthosApp.DataTypes.Controllo
import EthosApp.DataTypes.RegistroControllo
import EthosApp.Services.Firestore
import EthosApp.Services.DatabaseCommand
import EthosApp.Services.MostraPdf
import EthosApp.Screens.DateFields
import EthosApp.Screens.AddControl
import EthosApp.Screens.EditControl
import EthosApp.Screens.CheckControl
import EthosApp.Screens.ShowControl
import EthosApp.Screens.Navigation
import EthosApp.Screens.Stacks
import EthosApp.Screens.Login
import EthosApp.Screens.Pickers
import EthosApp.Screens.Dropdowns
import EthosApp.Screens.Scanner
import EthosApp.Store.Codec
import EthosApp.Store.ReadAfterWrite
import EthosApp.Store.Confirms
import EthosApp.Store.Decodable
import EthosApp.Store.DateOrder
import EthosApp.Store.Sheets
import EthosApp.Store.CheckEffects
import EthosApp.Store.Sessions
import EthosApp.Store.AddRace
import EthosApp.Store.Arrivals
import EthosApp.Store.Codes
import EthosApp.Store.Register
import EthosApp.Store.RegisterKey
import EthosApp.Store.RegisterExport
import EthosApp.Store.LastCheck
import EthosApp.Store.PickedDates
import EthosApp.Store.Agenda
import EthosApp.Store.UntouchedEdit
import EthosApp.Store.LoadHour
import EthosApp.Store.Editable
import EthosApp.Store.Registry
import EthosApp.Store.Replay
import EthosApp.Store.Readers
import EthosApp.Store.Presence
import EthosApp.Store.LastWrite
import EthosApp.Store.Retries
import EthosApp.Store.Deliveries
import EthosApp.App.Clients
import EthosApp.App.Handlers
import EthosApp.App.Refinement
import EthosApp.App.Guarantees
import EthosApp.App.Export
import EthosApp.App.Views
import EthosApp.App.Lists
import EthosApp.App.SearchControl
