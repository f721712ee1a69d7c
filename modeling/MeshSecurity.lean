import MeshSecurity.Address
import MeshSecurity.Bounded
import MeshSecurity.Bytes
import MeshSecurity.Cipher.Aes
import MeshSecurity.Cipher.Ccm
import MeshSecurity.Cipher.Envelope
import MeshSecurity.Cipher.Parameters
import MeshSecurity.Config
import MeshSecurity.Error
import MeshSecurity.Fermat
import MeshSecurity.GroupKey
import MeshSecurity.Hash.Sha3
import MeshSecurity.Journal
import MeshSecurity.Journal.Run
import MeshSecurity.NeighborTable
import MeshSecurity.NeighborTable.Roster
import MeshSecurity.NeighborTable.Run
import MeshSecurity.Network
import MeshSecurity.Node
import MeshSecurity.Node.Run
import MeshSecurity.Pairwise.Blom
import MeshSecurity.Pairwise.Blom.Run
import MeshSecurity.Pairwise.Scheme
import MeshSecurity.Proofs.AlikeSecrets
import MeshSecurity.Proofs.BlomAgreement
import MeshSecurity.Proofs.BufferContents
import MeshSecurity.Proofs.ChallengeRenewal
import MeshSecurity.Proofs.ChurnResets
import MeshSecurity.Proofs.ClockSteps
import MeshSecurity.Proofs.CoalitionKnowledge
import MeshSecurity.Proofs.ConsecutiveValues
import MeshSecurity.Proofs.DeadlineProgress
import MeshSecurity.Proofs.Durability
import MeshSecurity.Proofs.EngineFailures
import MeshSecurity.Proofs.FailedRequests
import MeshSecurity.Proofs.FailedRevocations
import MeshSecurity.Proofs.FieldArithmetic
import MeshSecurity.Proofs.FieldOperations
import MeshSecurity.Proofs.GroupKeyIndependence
import MeshSecurity.Proofs.HelloHistory
import MeshSecurity.Proofs.HelloPacing
import MeshSecurity.Proofs.IntervalBounds
import MeshSecurity.Proofs.IntervalSchedule
import MeshSecurity.Proofs.JournalIndependence
import MeshSecurity.Proofs.JustifiedSuppression
import MeshSecurity.Proofs.KeyDistribution
import MeshSecurity.Proofs.KeyRenewal
import MeshSecurity.Proofs.LoadedRecords
import MeshSecurity.Proofs.MessageNonces
import MeshSecurity.Proofs.MessageTruncation
import MeshSecurity.Proofs.NeighborLookup
import MeshSecurity.Proofs.NeighborMap
import MeshSecurity.Proofs.NeighborRoster
import MeshSecurity.Proofs.NeighborSlots
import MeshSecurity.Proofs.NewestRecords
import MeshSecurity.Proofs.NodeSteps
import MeshSecurity.Proofs.NonceIdentity
import MeshSecurity.Proofs.PermanentRevocation
import MeshSecurity.Proofs.RandomDraws
import MeshSecurity.Proofs.RedundancyCount
import MeshSecurity.Proofs.RejectedRequests
import MeshSecurity.Proofs.ReplyNonces
import MeshSecurity.Proofs.RequestAcceptance
import MeshSecurity.Proofs.RequestEquivalence
import MeshSecurity.Proofs.RequestReplay
import MeshSecurity.Proofs.ResetSpacing
import MeshSecurity.Proofs.RevocationReports
import MeshSecurity.Proofs.RevocationSteps
import MeshSecurity.Proofs.SealedMessages
import MeshSecurity.Proofs.SecretCache
import MeshSecurity.Proofs.SecretIndependence
import MeshSecurity.Proofs.SeededMatrix
import MeshSecurity.Proofs.ShortWrites
import MeshSecurity.Proofs.StoreLedger
import MeshSecurity.Proofs.StoredRecords
import MeshSecurity.Proofs.StreamRequests
import MeshSecurity.Proofs.StrictEvaluation
import MeshSecurity.Proofs.TimerFiring
import MeshSecurity.Proofs.TrickleSteps
import MeshSecurity.Proofs.UniformDraws
import MeshSecurity.Random.Generator
import MeshSecurity.Random.SeedStream
import MeshSecurity.Random.SeedStream.Run
import MeshSecurity.Random.Source
import MeshSecurity.Request
import MeshSecurity.Revocation
import MeshSecurity.Revocation.Run
import MeshSecurity.RevocationList
import MeshSecurity.RevocationList.Run
import MeshSecurity.Saturating
import MeshSecurity.Simulation.Interrupted
import MeshSecurity.Simulation.ParentSet
import MeshSecurity.Simulation.Radio
import MeshSecurity.Simulation.Recorded
import MeshSecurity.Simulation.RefusingScheme
import MeshSecurity.Status
import MeshSecurity.Storage.File
import MeshSecurity.Storage.Memory
import MeshSecurity.Time
import MeshSecurity.Timer
import MeshSecurity.Timer.Run
import MeshSecurity.Trickle
import MeshSecurity.Trickle.Run
import MeshSecurity.Trickle.Timetable
import MeshSecurity.Trickle.Traffic
