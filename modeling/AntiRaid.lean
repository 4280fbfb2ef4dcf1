import AntiRaid.Python.Str
import AntiRaid.Python.Base64
import AntiRaid.Python.Json
import AntiRaid.Python.Loops
import AntiRaid.Python.Loads
import AntiRaid.Python.Dumps
import AntiRaid.Devutils.S3
import AntiRaid.Devutils.MergeGuilds
import AntiRaid.Devutils.JobOwnerToGuild
import AntiRaid.Devutils.MigrateNonencryptedBackups
import AntiRaid.Devutils.FindEncrypted
import AntiRaid.Devutils.AddPerm
import AntiRaid.Devutils.MigrateGuildData
import AntiRaid.Devutils.DownloadBackups
import AntiRaid.Devutils.BucketLists
import AntiRaid.Deploy.Yaml
import AntiRaid.Deploy.Template
import AntiRaid.Deploy.Common
import AntiRaid.Deploy.Docker.Setup
import AntiRaid.Deploy.Setup
import AntiRaid.Deploy.Events
