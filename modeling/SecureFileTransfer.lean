import SecureFileTransfer.LoginTrace
import SecureFileTransfer.AuditChain
import SecureFileTransfer.Download
import SecureFileTransfer.FrameStream
import SecureFileTransfer.Lib.Runs
import SecureFileTransfer.Privilege
import SecureFileTransfer.ProtocolProofs
import SecureFileTransfer.OneUser
import SecureFileTransfer.ReplyLimit
import SecureFileTransfer.AllOrNothing
import SecureFileTransfer.SessionTrace
import SecureFileTransfer.TamperEvidence
import SecureFileTransfer.Orphans
import SecureFileTransfer.WireRoundTrip
import SecureFileTransfer.ClientKeys
import SecureFileTransfer.BlobSize
import SecureFileTransfer.OneReply
import SecureFileTransfer.UploadDelivery
import SecureFileTransfer.Registration
import SecureFileTransfer.UserParity
import SecureFileTransfer.FileParity
import SecureFileTransfer.AsioTcpTransport
import SecureFileTransfer.WrappedKeys
import SecureFileTransfer.AuditTokens
import SecureFileTransfer.AuditReadback
import SecureFileTransfer.ReplacedLog
import SecureFileTransfer.AuditHead
import SecureFileTransfer.FileCodec
import SecureFileTransfer.AtomicOverwrite
import SecureFileTransfer.BlobMap
import SecureFileTransfer.CipherIntegrity
import SecureFileTransfer.NameConfinement
import SecureFileTransfer.TryDecode
import SecureFileTransfer.ValidationAgreement
import SecureFileTransfer.Lib.Relational
import SecureFileTransfer.Interchange
import SecureFileTransfer.BackendParity
import SecureFileTransfer.BlindRelay
import SecureFileTransfer.Lib.MerkleDamgard
import SecureFileTransfer.HashReduction
import SecureFileTransfer.WireServer
import SecureFileTransfer.Online
import SecureFileTransfer.OnlineAgreement
import SecureFileTransfer.OnlineUploads
import SecureFileTransfer.OnlineRuns
import SecureFileTransfer.Lib.Journal
import SecureFileTransfer.AuditLedger
import SecureFileTransfer.LedgerHead
import SecureFileTransfer.TransferList
