import IpServer.Http.Accounting
import IpServer.Http.Batch
import IpServer.Http.Caching
import IpServer.Http.Client
import IpServer.Http.Concurrent
import IpServer.Http.Gate
import IpServer.Http.Health
import IpServer.Http.Linearization
import IpServer.Http.Malformed
import IpServer.Http.Rejected
import IpServer.Http.Responses
import IpServer.Http.Singles
import IpServer.Http.Termination
import IpServer.Database
import IpServer.Database.Handles
import IpServer.KeyStore
import IpServer.Metrics.Percentile
import IpServer.Metrics.Recent
import IpServer.Cache.Budget
import IpServer.Cache.Conservation
import IpServer.Cache.History
import IpServer.Cache.LeastRecent
import IpServer.Cache.Representation
import IpServer.Config.Document
import IpServer.Config.Launch
import IpServer.Config.Layering
import IpServer.Config.Numbers
import IpServer.Config.Saving
import IpServer.Config.Writing
import IpServer.Password.Alphabet
import IpServer.Password.Coverage
import IpServer.Password.Length
import IpServer.Password.Narrowing
import IpServer.Password.Range
import IpServer.RateLimiter.Protection
import IpServer.RateLimiter.Remaining
import IpServer.RateLimiter.Representation
import IpServer.RateLimiter.SlidingLog
import IpServer.Service.Concurrent
import IpServer.Service.Failure
import IpServer.Validation.Ip
import IpServer.Validation.Mac
