import Friidump.SeedCache
import Friidump.BlockScrambling
import Friidump.UnscramblerSoundness
import Friidump.SeedCacheTransparency
import Friidump.ZoneInterference
import Friidump.SeedCacheShape
import Friidump.DvdDrive
import Friidump.MemoryDump
import Friidump.Disc
import Friidump.DiscReadMethods
import Friidump.ReadFrames
import Friidump.DiscSetup
import Friidump.BlockCache
import Friidump.DiscProperties
import Friidump.DiscMethodsProperties
import Friidump.CacheValidity
import Friidump.FileUnscrambling
import Friidump.ImageConversion
import Friidump.Theory.DirectMapped
import Friidump.CacheRefinement
import Friidump.StreamingPass
import Friidump.ChunkTiling
import Friidump.SequenceCheck
import Friidump.CacheAddressing
import Friidump.CountingDrive
import Friidump.MethodAgreement
import Friidump.CommandRecord
import Friidump.CacheAssertion
import Friidump.CheckedReads
import Friidump.DistantReads
import Friidump.DisplacingCalls
import Friidump.PrefetchedBlocks
import Friidump.SectorPlacement
import Friidump.SectorAddressing
import Friidump.ReedSolomon
import Friidump.GaloisTables
import Friidump.ReedSolomonEncoding
import Friidump.ReedSolomonDecoding
import Friidump.ReedSolomonCorrection
import Friidump.Theory.LinearRecurrence
import Friidump.Theory.ErrorLocator
import Friidump.Theory.BinaryExtension
import Friidump.Theory.AppendStream
import Friidump.Dumper
import Friidump.DumpResume
import Friidump.DumpCompleteness
import Friidump.RestartPosition
import Friidump.DecodingSoundness
import Friidump.DecodingCapability
import Friidump.DumpContract
import Friidump.DumpReach
import Friidump.DumpLayouts
import Friidump.Theory.FixedVector
import Friidump.Sha1
import Friidump.Sha1InPlace
import Friidump.HashedDump
import Friidump.CacheBlindness
import Friidump.HashedDumpRefinement
import Friidump.Theory.BlockStream
import Friidump.MessageDigest
import Friidump.Sha1Digest
import Friidump.Md5
import Friidump.Crc32
import Friidump.Md4
import Friidump.Ed2kHash
import Friidump.Multihash
import Friidump.DumpIntegrity
import Friidump.ImageDump
import Friidump.CheckedFiles
import Friidump.DumpStops
import Friidump.Program
import Friidump.ProgramSteps
import Friidump.ProgramFiles
import Friidump.ProgramHashing
import Friidump.ProgramImage
import Friidump.Theory.FewErrors
import Friidump.ErrorDetection
import Friidump.FileConversion
import Friidump.MemoryBounds
import Friidump.StackBounds
import Friidump.ProgramBounds
