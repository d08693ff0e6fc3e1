import ChisLink.AdvertisingScans
import ChisLink.AlignedTransfers
import ChisLink.AnsweredExchange
import ChisLink.AnsweringDevice
import ChisLink.BatterylessBounds
import ChisLink.Bisection
import ChisLink.BleClient
import ChisLink.BleConnections
import ChisLink.BleLinkIo
import ChisLink.BleLinkStart
import ChisLink.BleScratch
import ChisLink.BleScratchBounds
import ChisLink.BleScratchReports
import ChisLink.BridgeStream
import ChisLink.CacheFailures
import ChisLink.CartFile
import ChisLink.CartNorCommands
import ChisLink.CartNorDriver
import ChisLink.CartNorErase
import ChisLink.CartNorIdentification
import ChisLink.CartNorProbe
import ChisLink.CartNorProgramming
import ChisLink.CartNorRegions
import ChisLink.CartNorSession
import ChisLink.CartSaveArrays
import ChisLink.CartSaveDriver
import ChisLink.CartSaveFiles
import ChisLink.CartSaveProbe
import ChisLink.CartWindows
import ChisLink.ChunkAgreement
import ChisLink.ChunkReading
import ChisLink.CircularFifo
import ChisLink.ClientBoundary
import ChisLink.ClientExchange
import ChisLink.CommandEncoding
import ChisLink.ControlClient
import ChisLink.CopyAgreement
import ChisLink.CopyStream
import ChisLink.CopyWindows
import ChisLink.Crc32
import ChisLink.Crc32Chunks
import ChisLink.Crc32Table
import ChisLink.DirectoryListing
import ChisLink.DirectoryStream
import ChisLink.DriverPrograms
import ChisLink.EepromUnits
import ChisLink.ErasableMemory
import ChisLink.ErasingWrites
import ChisLink.FairSchedules
import ChisLink.FallbackPages
import ChisLink.FileCopy
import ChisLink.FileCrc32
import ChisLink.FileLayer
import ChisLink.FileOperations
import ChisLink.FileVerification
import ChisLink.FlashSaveCalls
import ChisLink.FlashSaveChip
import ChisLink.FlashSaveWrites
import ChisLink.GameDatabase
import ChisLink.GameDatabaseFile
import ChisLink.GameDatabaseSearch
import ChisLink.GoombaCache
import ChisLink.GoombaMapping
import ChisLink.HandleRuns
import ChisLink.HandleTable
import ChisLink.Ipv4Text
import ChisLink.KeyedSums
import ChisLink.LabelledRuns
import ChisLink.MemoryStore
import ChisLink.NetClient
import ChisLink.NetTransfers
import ChisLink.NorFlashChip
import ChisLink.PocketnesCache
import ChisLink.PocketnesCoherence
import ChisLink.PocketnesHeader
import ChisLink.PocketnesMapping
import ChisLink.PocketnesResidency
import ChisLink.PocketnesSaveStates
import ChisLink.PocketnesStateFiles
import ChisLink.PocketnesStateLoads
import ChisLink.PocketnesStateRestores
import ChisLink.PocketnesSwitches
import ChisLink.PocketnesTables
import ChisLink.PositionedTransfers
import ChisLink.PosixSeek
import ChisLink.RamMap
import ChisLink.ReadableFiles
import ChisLink.ReflectedCrc
import ChisLink.RelayServerClosing
import ChisLink.RelayServerCredentials
import ChisLink.RelayServerDelivery
import ChisLink.RelayServerIncarnation
import ChisLink.RelayServerLimit
import ChisLink.RelayServerModel
import ChisLink.RelayServerMutex
import ChisLink.RelayServerOrder
import ChisLink.RelayServerProgress
import ChisLink.RelayServerQueue
import ChisLink.RelayServerRegistry
import ChisLink.RelayServerReplay
import ChisLink.RelayServerRooms
import ChisLink.RelayServerStep
import ChisLink.RemoteListing
import ChisLink.RemotePages
import ChisLink.ReplyMatching
import ChisLink.ResourceLedger
import ChisLink.RestrictedCopy
import ChisLink.SavePaths
import ChisLink.SaveSessions
import ChisLink.SerialBits
import ChisLink.SioAgreement
import ChisLink.SioHandlers
import ChisLink.SioMemory
import ChisLink.SioTransport
import ChisLink.SlotCache
import ChisLink.SocketLayer
import ChisLink.SocketOwnership
import ChisLink.SocketSelect
import ChisLink.StatePathNames
import ChisLink.StatePaths
import ChisLink.StorageBoundary
import ChisLink.StorageClient
import ChisLink.StorageWrites
import ChisLink.StreamClient
import ChisLink.StreamClientBoundary
import ChisLink.StreamLifecycle
import ChisLink.StreamReading
import ChisLink.StreamRefinement
import ChisLink.StreamRing
import ChisLink.StreamServer
import ChisLink.TickClock
import ChisLink.Utf8Units
import ChisLink.VideoMemoryStores
import ChisLink.WireCommands
import ChisLink.WireProtocol
import ChisLink.WritableFiles
