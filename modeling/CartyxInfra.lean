import CartyxInfra.Lib.JString
import CartyxInfra.Lib.Json
import CartyxInfra.Lib.Script
import CartyxInfra.Lib.RelyGuarantee
import CartyxInfra.Lib.Fallible
import CartyxInfra.Lib.Interruption
import CartyxInfra.Lib.Regex
import CartyxInfra.Lib.Lines
import CartyxInfra.Lib.Yaml
import CartyxInfra.Lib.BlockStyle
import CartyxInfra.Lib.Retention
import CartyxInfra.Lib.Shell
import CartyxInfra.Lib.StableSort
import CartyxInfra.Lib.Trace
import CartyxInfra.Lib.Trim
import CartyxInfra.Lib.Calendar
import CartyxInfra.Lib.Finally
import CartyxInfra.Lib.Stream
import CartyxInfra.Lib.Lexer
import CartyxInfra.Lib.Redaction
import CartyxInfra.Lib.Rbac
import CartyxInfra.Lib.NetworkPolicy
import CartyxInfra.Gremlin.Values
import CartyxInfra.Gremlin.Authorizer
import CartyxInfra.Gremlin.Policy
import CartyxInfra.Gremlin.Gate
import CartyxInfra.Gremlin.Reserved
import CartyxInfra.Gremlin.Outcome
import CartyxInfra.Gremlin.Decision
import CartyxInfra.Gremlin.DataContent
import CartyxInfra.Gremlin.Predicates
import CartyxInfra.Gremlin.GraphSONSerializer
import CartyxInfra.Gremlin.TypedValues
import CartyxInfra.Gremlin.MimeGuard
import CartyxInfra.Gremlin.Channelizer
import CartyxInfra.Gremlin.HttpAuthorization
import CartyxInfra.Gremlin.Nesting
import CartyxInfra.Gremlin.AuthenticationGate
import CartyxInfra.Gremlin.Pipeline
import CartyxInfra.Gremlin.Served
import CartyxInfra.Backup.Objects
import CartyxInfra.Backup.ClusterApi
import CartyxInfra.Backup.BackupCluster
import CartyxInfra.Backup.Cluster
import CartyxInfra.Backup.Calls
import CartyxInfra.Backup.Protocol
import CartyxInfra.Backup.Verified
import CartyxInfra.Backup.Holding
import CartyxInfra.Backup.Lease
import CartyxInfra.Backup.Recovery
import CartyxInfra.Backup.Exclusion
import CartyxInfra.Backup.Publication
import CartyxInfra.Backup.Readiness
import CartyxInfra.Backup.Attestation
import CartyxInfra.Backup.RetireOldBackups
import CartyxInfra.Backup.RetentionPolicy
import CartyxInfra.Backup.History
import CartyxInfra.Backup.Reporting
import CartyxInfra.Backup.Reported
import CartyxInfra.Backup.Resume
import CartyxInfra.Backup.Timestamps
import CartyxInfra.Backup.Permissions
import CartyxInfra.Restore.RestoreCluster
import CartyxInfra.Restore.Compatibility
import CartyxInfra.Restore.Rehearsal
import CartyxInfra.Restore.Destination
import CartyxInfra.Restore.Ownership
import CartyxInfra.Restore.Steps
import CartyxInfra.Restore.Approval
import CartyxInfra.Restore.Loaded
import CartyxInfra.Restore.Restored
import CartyxInfra.Restore.Isolation
import CartyxInfra.Platform.PostgresBackup
import CartyxInfra.Credentials.ProvisionSecret
import CartyxInfra.Credentials.Startup
import CartyxInfra.Credentials.Interleaving
import CartyxInfra.Credentials.Secrets
import CartyxInfra.Credentials.Reruns
import CartyxInfra.Cassandra.CassandraAdmin
import CartyxInfra.Cassandra.Database
import CartyxInfra.Cassandra.Provisioning
import CartyxInfra.Cassandra.Bootstrap
import CartyxInfra.Cassandra.Configuration
import CartyxInfra.Cassandra.Secured
import CartyxInfra.Cassandra.Cql
import CartyxInfra.Cassandra.Sent
import CartyxInfra.Images.PatchJar
import CartyxInfra.Local.LocalBackup
import CartyxInfra.Local.LocalStack
import CartyxInfra.Local.LocalProtocol
import CartyxInfra.Local.LocalVerified
import CartyxInfra.Local.LocalRestore
import CartyxInfra.Local.Archives
import CartyxInfra.Local.CqlProxy
import CartyxInfra.Local.Forwarded
import CartyxInfra.Network.DataPolicy
