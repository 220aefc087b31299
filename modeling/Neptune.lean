import Neptune.Proofs.DeviceTornOnce
import Neptune.Proofs.IdleSweepOnce
import Neptune.Proofs.LockReturnRun
import Neptune.Proofs.LockWake
import Neptune.Proofs.RelayLosesNone
import Neptune.Proofs.StallOneClear
import Neptune.Proofs.CfgMapBindings
import Neptune.Proofs.ParseKeepsListed
import Neptune.Proofs.SuspendUndone
import Neptune.Proofs.UasReuse
import Neptune.Proofs.RepliedOnce
import Neptune.Proofs.TagCovered
import Neptune.Proofs.MediumFresh
import Neptune.Proofs.MediaVerdict
import Neptune.Proofs.EjectHonest
import Neptune.Proofs.EncodeInverse
import Neptune.Proofs.KeysBalanced
import Neptune.Proofs.JudgedAlone
import Neptune.Proofs.Rendezvous
import Neptune.Proofs.PortMirrored
import Neptune.Proofs.OneConnector
import Neptune.Proofs.FunctionModel
import Neptune.Proofs.ModeCoherent
import Neptune.Proofs.ControlKept
import Neptune.Proofs.AudioBalanced
import Neptune.Proofs.PortsSafe
import Neptune.Proofs.BurstSplit
import Neptune.Proofs.LastRequest
import Neptune.Proofs.IntervalsSane
import Neptune.Proofs.TreeShaped
import Neptune.Proofs.InsideReply
import Neptune.Proofs.EndpointsListed
import Neptune.Proofs.ArmedTakenBack
import Neptune.Proofs.WriteBuffer
import Neptune.Proofs.ReadWaits
import Neptune.Proofs.AddressesApart
import Neptune.Proofs.RequestsAnswered
import Neptune.Proofs.PipesConserved
import Neptune.Proofs.DeadVerdict
import Neptune.Proofs.RolledBack
import Neptune.Proofs.ActivityCounted
import Neptune.Proofs.PrefsLoaded
import Neptune.Proofs.Migrated
import Neptune.Proofs.HashTruthful
import Neptune.Proofs.BindingsReleased
import Neptune.Proofs.StringDecoded
import Neptune.Proofs.PowerBudget
import Neptune.Proofs.SpeedFlags
import Neptune.Proofs.HubSafe
import Neptune.Proofs.ArrayMeant
import Neptune.Proofs.QuirksKept
import Neptune.Proofs.CapacitySafe
import Neptune.Proofs.XlateMeant
import Neptune.Proofs.HidSaved
import Neptune.Proofs.AxisMonotone
import Neptune.Proofs.BulkPayloads
import Neptune.Proofs.UnitRestored
import Neptune.Proofs.IntervalsOffered
import Neptune.Proofs.ControlsVisited
import Neptune.Proofs.UnitsKept
import Neptune.Proofs.PlayerRates
import Neptune.Proofs.RecordedWhole
import Neptune.Proofs.SysExClosed
import Neptune.Proofs.LevelsKept
import Neptune.Proofs.TransmitWhole
import Neptune.Proofs.LengthsObeyed
