import Placeholder.AccessToken
import Placeholder.Binary64
import Placeholder.Config.ConfigFile
import Placeholder.Config.Discovery
import Placeholder.Config.Layer
import Placeholder.Config.Settings
import Placeholder.Config.Sources
import Placeholder.Credential
import Placeholder.Credential.Ambient
import Placeholder.Credential.AzureCli
import Placeholder.Credential.Chain
import Placeholder.Credential.ClientSecret
import Placeholder.Credential.ManagedIdentity
import Placeholder.Environment
import Placeholder.Environment.Assignments
import Placeholder.FetchError
import Placeholder.Files
import Placeholder.Http
import Placeholder.Http.Base64
import Placeholder.Json
import Placeholder.Json.Syntax
import Placeholder.Kind
import Placeholder.Main
import Placeholder.Outside
import Placeholder.Playback
import Placeholder.Program.Arguments
import Placeholder.Program.Listing
import Placeholder.Program.Paint
import Placeholder.Program.Run
import Placeholder.Proofs.Substitution.Policy
import Placeholder.Proofs.Template.Grammar
import Placeholder.Registry
import Placeholder.Rehearsal.Server
import Placeholder.Rehearsal.Session
import Placeholder.Rehearsal.World
import Placeholder.Retry
import Placeholder.RunError
import Placeholder.Substitution
import Placeholder.Table
import Placeholder.Template
import Placeholder.Text
import Placeholder.Text.Blank
import Placeholder.Text.Decoding
import Placeholder.Text.Quoted
import Placeholder.Token
import Placeholder.Toml
import Placeholder.Toml.Reader
import Placeholder.Url
import Placeholder.Url.Host
import Placeholder.Url.Path
import Placeholder.Url.Percent
import Placeholder.Url.Punycode
import Placeholder.Vault
import Placeholder.Vault.Name
import Placeholder.Proofs.Template.Leftmost
import Placeholder.Proofs.Retry.Attempts
import Placeholder.Proofs.Vault.Lookup
import Placeholder.Proofs.Credential.Exhaustion
import Placeholder.Proofs.Outside
import Placeholder.Proofs.Vault.Exhaustion
import Placeholder.Proofs.Vault.TokenCache
import Placeholder.Proofs.Credential.Lifetime
import Placeholder.Proofs.Substitution.Stops
import Placeholder.Proofs.Files.Written
import Placeholder.Proofs.Program.Outcome
import Placeholder.Proofs.Program.Crash
import Placeholder.Proofs.Url.Percent
import Placeholder.Proofs.Vault.Address
import Placeholder.Proofs.Substitution.Alike
import Placeholder.Proofs.Table.Led
import Placeholder.Proofs.Url.Host
import Placeholder.Proofs.Vault.Name
import Placeholder.Proofs.Config.Sources
import Placeholder.Proofs.Config.Layers
import Placeholder.Proofs.Config.Decision
import Placeholder.Proofs.Vault.Acquisition
import Placeholder.Proofs.Template.Segments
import Placeholder.Proofs.Text.Cut
import Placeholder.Proofs.Template.Offsets
import Placeholder.Proofs.Credential.Blank
import Placeholder.Proofs.Program.Given
import Placeholder.Proofs.Template.Written
import Placeholder.Proofs.Substitution.Boundaries
import Placeholder.Proofs.Substitution.Pure
import Placeholder.Proofs.Template.Gathered
import Placeholder.Proofs.Substitution.Again
import Placeholder.Proofs.Substitution.Staged
import Placeholder.Proofs.Substitution.Widened
import Placeholder.Proofs.Substitution.Registrations
import Placeholder.Retry.Loop
import Placeholder.Proofs.Retry.Loop
import Placeholder.Proofs.Retry.Schedule
import Placeholder.Proofs.Table.Insertions
import Placeholder.Proofs.Vault.Spelling
import Placeholder.Proofs.Credential.Limits
import Placeholder.Proofs.Vault.Limits
import Placeholder.Proofs.Text.Lines
import Placeholder.Proofs.Program.Listed
